import QOrder.Refusals
import QOrder.SweepFaults

/-! Each handler, along its own events: it opens a session at most, then commits its change,
and then announces that change to the kitchen and to the session before it ends. -/

namespace Concurrency.Along

variable {Q : Type} {R : Q → Type} {F E V α : Type} {Next : List V → (q : Q) → Except F (R q) → V → Prop}
  {I : List V → Q → Prop} {P : Q → Prop} {C : E → Prop} {l : List V} {p : Prog Q R F E α}

/-- What every statement of a program keeps holds at its end. -/
theorem of_keeps {J : List V → Prop} (hp : p.Keeps P C) (hj : J l) (hi : ∀ l q, J l → P q → I l q)
    (hn : ∀ l q r v, J l → P q → Next l q r v → J (l ++ [v])) :
    Along Next I p (fun r l' => J l' ∧ ∀ e, r = .error e → C e) l := by
  induction p generalizing l with
  | ret a =>
    refine ⟨hj, fun e he => ?_⟩
    cases he
  | raise e =>
    refine ⟨hj, fun e' he => ?_⟩
    cases he
    exact hp
  | stmt q k ih => exact ⟨hi l q hj hp.1, fun r v hv => ih r (hp.2 r) (hn l q r v hj hp.1 hv)⟩

end Concurrency.Along

namespace QOrder

open KeyedTable Concurrency

variable {n : Nat} {owner : Uuid → Uuid} {req : Fin n → Request} {D : Deployment owner} {d₀ : Data}
  {t : Fin n} {l l' : List (Event n)} {e : Event n} {α β : Type} {P : Event n → Prop}

def Stmt.Still (q : Stmt) : Prop := q.isCommit = false ∧ ¬ q.Publishes

abbrev Still (p : Action α) : Prop := p.Keeps Stmt.Still fun _ => True

section Still

theorem still_query (q : Query) : Still (Action.query q) := .call ⟨rfl, id⟩ fun _ => trivial

theorem still_command (c : Command) : Still (Action.command c) := .call ⟨rfl, id⟩ fun _ => trivial

theorem still_appNow : Still Action.appNow := .call ⟨rfl, id⟩ fun _ => trivial

theorem still_scalarOne (o : Option α) : Still (Action.scalarOne o) := by
  cases o <;> trivial

theorem still_read (expired : Bool) (a : α) : Still (readAttribute expired a) := by
  cases expired <;> trivial

theorem still_findOpenSession (tableId : Uuid) (loaded : List TableSession) :
    Still (findOpenSession tableId loaded) := by
  refine (still_query _).bind fun rows => ?_
  refine Prog.Keeps.bind ?_ fun _ => trivial
  match rows with
  | [] | [_] | _ :: _ :: _ => trivial

theorem still_validateItems (restaurantId : Uuid) (lines : List CreateOrderItemRequest)
    (menuItems : List MenuItem) : Still (Customer.validateItems restaurantId lines menuItems) := by
  induction lines generalizing menuItems with
  | nil => trivial
  | cons line lines ih =>
    refine (still_query _).bind fun row => ?_
    cases row with
    | none => trivial
    | some row =>
      simp only
      split
      · exact ih _
      · trivial

end Still

/-- No message, and only such commits as `P` allows. -/
def Hushed (P : Event n → Prop) (l : List (Event n)) : Prop :=
  ∀ e ∈ l, ¬ e.publishes ∧ (e.isCommit = true → P e)

/-- The last commit is still to be announced. -/
def Owing (P : Event n → Prop) (l : List (Event n)) : Prop :=
  ∃ pre c m, l = pre ++ c :: m ∧ Hushed P pre ∧ c.isCommit = true ∧ ∀ x ∈ m, x.stmt.Still

/-- The last commit has been announced to the kitchen and to a session. -/
def Heralded (P : Event n → Prop) (l : List (Event n)) : Prop :=
  ∃ pre c m a b restaurantId sessionId event, l = pre ++ c :: (m ++ [a, b]) ∧ Hushed P pre ∧
    c.isCommit = true ∧ (∀ x ∈ m, x.stmt.Still) ∧ a.stmt = .publish (.kitchen restaurantId) event ∧
    b.stmt = .publish (.session restaurantId sessionId) event

theorem Hushed.nil : Hushed P [] := by
  intro e he
  cases he

theorem Hushed.mono {P' : Event n → Prop} (h : Hushed P l) (hp : ∀ e, P e → P' e) : Hushed P' l :=
  fun e he => ⟨(h e he).1, fun hc => hp e ((h e he).2 hc)⟩

theorem Hushed.snoc (h : Hushed P l) (he : ¬ e.publishes) (hc : e.isCommit = true → P e) : Hushed P (l ++ [e]) := by
  intro x hx
  rcases List.mem_append.mp hx with hx | hx
  · exact h x hx
  · rw [List.mem_singleton.mp hx]
    exact ⟨he, hc⟩

theorem Hushed.still (h : Hushed P l) (he : e.stmt.Still) : Hushed P (l ++ [e]) := by
  refine h.snoc he.2 fun hc => ?_
  have hn : e.isCommit = false := he.1
  rw [hn] at hc
  cases hc

theorem Hushed.commit (h : Hushed P l) (hc : e.isCommit = true) : Owing P (l ++ [e]) :=
  ⟨l, e, [], rfl, h, hc, by simp⟩

theorem Owing.still (h : Owing P l) (he : e.stmt.Still) : Owing P (l ++ [e]) := by
  obtain ⟨pre, c, m, rfl, hp, hc, hm⟩ := h
  refine ⟨pre, c, m ++ [e], by simp, hp, hc, fun x hx => ?_⟩
  rcases List.mem_append.mp hx with hx | hx
  · exact hm x hx
  · rw [List.mem_singleton.mp hx]
    exact he

theorem Owing.told {a b : Event n} {restaurantId sessionId : Uuid} {event : RealtimeEvent} (h : Owing P l)
    (ha : a.stmt = .publish (.kitchen restaurantId) event)
    (hb : b.stmt = .publish (.session restaurantId sessionId) event) : Heralded P (l ++ [a] ++ [b]) := by
  obtain ⟨pre, c, m, rfl, hp, hc, hm⟩ := h
  exact ⟨pre, c, m, a, b, restaurantId, sessionId, event, by simp, hp, hc, hm, ha, hb⟩

/-- How a handler ends. That a row it has read before is gone is not possible. -/
def Finishes (P : Event n → Prop) (r : Except Exn α) (l : List (Event n)) : Prop :=
  r = .error .noResultFound ∨ Hushed P l ∨ Heralded P l

theorem Finishes.mono {P' : Event n → Prop} {r : Except Exn α} (h : Finishes P r l) (hp : ∀ e, P e → P' e) :
    Finishes P' r l := by
  rcases h with hr | hl | ⟨pre, c, m, a, b, restaurantId, sessionId, event, rfl, hpre, h⟩
  · exact .inl hr
  · exact .inr (.inl (hl.mono hp))
  · exact .inr (.inr ⟨pre, c, m, a, b, restaurantId, sessionId, event, rfl, hpre.mono hp, h⟩)

/-- How an operation ends that commits where it gives `yes`. -/
def CommitsIf (P : Event n → Prop) (yes : α → Prop) (r : Except Exn α) (l : List (Event n)) : Prop :=
  match r with
  | .ok a => yes a ∧ Owing P l ∨ ¬ yes a ∧ Hushed P l
  | .error e => e = .noResultFound ∨ Hushed P l

/-- The outcomes that a handler or one of its operations may end with while it is hushed. -/
structure Lenient (P : Event n → Prop) (post : Except Exn α → List (Event n) → Prop) : Prop where
  hushed : ∀ e l, Hushed P l → post (.error e) l
  missing : ∀ l, post (.error .noResultFound) l

theorem lenient_finishes : Lenient P (Finishes (α := α) P) := ⟨fun _ _ h => .inr (.inl h), fun _ => .inl rfl⟩

theorem lenient_commitsIf {yes : α → Prop} : Lenient P (CommitsIf P yes) :=
  ⟨fun _ _ h => .inr h, fun _ => .inl rfl⟩

namespace Watch.Prompt

variable {post : Except Exn α → List (Event n) → Prop} {p : Action β} {f : β → Action α} {yes : β → Prop}

theorem hushed (hpost : Lenient P post) (hp : Still p) (hl : Hushed P l)
    (hok : ∀ a l', Hushed P l' → Watch owner req d₀ t anyEvent anywhere (f a) post l') :
    Watch owner req d₀ t anyEvent anywhere (p >>= f) post l := by
  have hkeeps : Watch owner req d₀ t anyEvent anywhere p
      (fun r l' => Hushed P l' ∧ ∀ e, r = .error e → True) l := by
    refine Along.of_keeps hp hl (fun _ _ _ _ => trivial) ?_
    rintro l q r v hl hq ⟨⟨σ, σ', -, -, -, -, rfl⟩, -⟩
    exact hl.still hq
  exact Along.bind hkeeps (fun a l' h => hok a l' h.1) fun e l' h => hpost.hushed e l' h.1

theorem commits {f : Unit → Action α} (hl : Hushed P l)
    (hok : ∀ l', Owing P l' → Watch owner req d₀ t anyEvent anywhere (f ()) post l') :
    Watch owner req d₀ t anyEvent anywhere (Action.commit >>= f) post l :=
  commit trivial fun _ _ _ _ _ => hok _ (hl.commit rfl)

theorem owing_query {q : Query} {f : q.Resp → Action α} (hl : Owing P l)
    (hok : ∀ a l', Owing P l' → Watch owner req d₀ t anyEvent anywhere (f a) post l') :
    Watch owner req d₀ t anyEvent anywhere (Action.query q >>= f) post l :=
  query trivial fun _ _ _ _ _ => hok _ _ (hl.still ⟨rfl, id⟩)

theorem required (hpost : Lenient P post) {o : Option β}
    (hok : ∀ a, Watch owner req d₀ t anyEvent anywhere (f a) post l) :
    Watch owner req d₀ t anyEvent anywhere (Action.scalarOne o >>= f) post l := by
  cases o with
  | none => exact hpost.missing l
  | some a => exact hok a

/-- The kitchen is told first, then the session. -/
theorem herald {restaurantId sessionId : Uuid} {event : RealtimeEvent} {a : α} (hl : Owing P l) :
    Watch owner req d₀ t anyEvent anywhere (do
      Action.publish (.kitchen restaurantId) event
      Action.publish (.session restaurantId sessionId) event
      return a) (Finishes P) l := by
  refine publish trivial fun σ _ _ _ _ => publish trivial fun σ₁ _ _ _ _ => ?_
  exact .inr (.inr (hl.told rfl rfl))

theorem owes (hpost : Lenient P post) (h : Watch owner req d₀ t anyEvent anywhere p (CommitsIf P yes) l)
    (hok : ∀ a l', yes a → Owing P l' → Watch owner req d₀ t anyEvent anywhere (f a) post l')
    (hno : ∀ a l', ¬ yes a → Hushed P l' → Watch owner req d₀ t anyEvent anywhere (f a) post l') :
    Watch owner req d₀ t anyEvent anywhere (p >>= f) post l := by
  refine Along.bind h (fun a l' ha => ?_) fun e l' he => ?_
  · rcases ha with ⟨hy, ho⟩ | ⟨hn, hh⟩
    · exact hok a l' hy ho
    · exact hno a l' hn hh
  · rcases he with rfl | hh
    · exact hpost.missing l'
    · exact hpost.hushed e l' hh

theorem translated {g : Exn → Exn} (hg : g .noResultFound = .noResultFound)
    (h : Watch owner req d₀ t anyEvent anywhere p (CommitsIf P yes) l) :
    Watch owner req d₀ t anyEvent anywhere (QOrder.translate g p) (CommitsIf P yes) l := by
  refine h.translate (fun a l' ha => ha) fun e l' he => ?_
  rcases he with rfl | hh
  · exact .inl hg
  · exact .inr hh

section Operations

theorem updateItem {update : Command} {conflict : String} (hl : Hushed P l) :
    Watch owner req d₀ t anyEvent anywhere (ItemStateService.updateItem update conflict)
      (CommitsIf P fun _ => True) l := by
  unfold ItemStateService.updateItem
  refine hushed lenient_commitsIf (still_command _) hl fun rows l₁ h₁ => ?_
  split
  · exact .inr h₁
  · refine hushed lenient_commitsIf (still_command _) h₁ fun _ l₂ h₂ => ?_
    refine commits h₂ fun l₃ h₃ => ?_
    exact .inl ⟨trivial, h₃⟩

theorem setStatus {itemId restaurantId : Uuid} {toStatus : OrderItemStatus} {actorUserId : Option Uuid}
    (hl : Hushed P l) : Watch owner req d₀ t anyEvent anywhere
      (ItemStateService.setStatus itemId toStatus actorUserId restaurantId) (CommitsIf P fun _ => True) l := by
  cases toStatus with
  | cancelled => exact .inr hl
  | _ => exact updateItem hl

theorem insertCall {tableId tableSessionId restaurantId : Uuid} (hl : Hushed P l) :
    Watch owner req d₀ t anyEvent anywhere (StaffCallService.insertCall tableId tableSessionId restaurantId)
      (CommitsIf P fun _ => True) l := by
  unfold StaffCallService.insertCall
  refine hushed lenient_commitsIf (still_command _) hl fun _ l₁ h₁ => ?_
  refine hushed lenient_commitsIf (still_command _) h₁ fun rows l₂ h₂ => ?_
  refine hushed lenient_commitsIf (still_scalarOne _) h₂ fun call l₃ h₃ => ?_
  refine commits h₃ fun l₄ h₄ => owing_query h₄ fun row l₅ h₅ => ?_
  rw [← bind_pure (Action.scalarOne row)]
  refine required lenient_commitsIf fun call => ?_
  exact .inl ⟨trivial, h₅⟩

theorem acknowledge {callId actorUserId : Uuid} (hl : Hushed P l) :
    Watch owner req d₀ t anyEvent anywhere (StaffCallService.acknowledge callId actorUserId)
      (CommitsIf P fun _ => True) l := by
  unfold StaffCallService.acknowledge
  refine hushed lenient_commitsIf still_appNow hl fun now l₁ h₁ => ?_
  refine hushed lenient_commitsIf (still_command _) h₁ fun _ l₂ h₂ => ?_
  refine commits h₂ fun l₃ h₃ => owing_query h₃ fun row l₄ h₄ => ?_
  rw [← bind_pure (Action.scalarOne row)]
  refine required lenient_commitsIf fun call => ?_
  exact .inl ⟨trivial, h₄⟩

theorem still_setLastActivity (tableSession : TableSession) (now : Timestamp) :
    Still (Customer.setLastActivity tableSession now) := by
  unfold Customer.setLastActivity
  split
  · trivial
  · exact (still_command _).bind fun _ => trivial

theorem placeOrder {restaurantId : Uuid} {tableSession : TableSession} {menuItems : List MenuItem}
    {lines : List CreateOrderItemRequest} (hl : Hushed P l) : Watch owner req d₀ t anyEvent anywhere
      (Customer.placeOrder restaurantId tableSession menuItems lines) (CommitsIf P fun _ => True) l := by
  unfold Customer.placeOrder
  refine hushed lenient_commitsIf still_appNow hl fun now l₁ h₁ => ?_
  refine hushed lenient_commitsIf (still_command _) h₁ fun _ l₂ h₂ => ?_
  refine hushed lenient_commitsIf (still_scalarOne _) h₂ fun order l₃ h₃ => ?_
  refine hushed lenient_commitsIf (still_command _) h₃ fun rows l₄ h₄ => ?_
  refine hushed lenient_commitsIf (still_setLastActivity ..) h₄ fun _ l₅ h₅ => ?_
  refine commits h₅ fun l₆ h₆ => ?_
  exact .inl ⟨trivial, h₆⟩

theorem refreshItems {items : List OrderItem} {f : List OrderItem → Action α} (hpost : Lenient P post)
    (hl : Owing P l)
    (hok : ∀ items' l', Owing P l' → Watch owner req d₀ t anyEvent anywhere (f items') post l') :
    Watch owner req d₀ t anyEvent anywhere (Customer.refreshItems items >>= f) post l := by
  induction items generalizing l f with
  | nil => exact hok [] l hl
  | cons item items ih =>
    simp only [Customer.refreshItems, bind_assoc]
    refine owing_query hl fun row l₁ h₁ => required hpost fun item' => ?_
    exact ih h₁ fun items' l' h' => hok _ l' h'

theorem readBack {sessionId : Uuid} {loaded : List TableSession} {f : TableSession → Action α}
    (hpost : Lenient P post) (hl : Owing P l)
    (hok : ∀ s l', Owing P l' → Watch owner req d₀ t anyEvent anywhere (f s) post l') :
    Watch owner req d₀ t anyEvent anywhere (SessionService.readBack sessionId loaded >>= f) post l := by
  simp only [SessionService.readBack, bind_assoc]
  exact owing_query hl fun row l₁ h₁ => required hpost fun s => hok _ l₁ h₁

theorem settle {sessionId restaurantId : Uuid} {loaded : List TableSession} (hl : Hushed P l) :
    Watch owner req d₀ t anyEvent anywhere (SessionService.settle sessionId restaurantId loaded)
      (CommitsIf P fun _ => True) l := by
  have hcancel (sessionId : Uuid) (cancelled : List CancelledItemSummary) :
      Still (SessionService.cancelIfAny sessionId cancelled) := by
    unfold SessionService.cancelIfAny
    split
    · trivial
    · exact (still_command _).bind fun _ => trivial
  unfold SessionService.settle
  refine hushed lenient_commitsIf (still_query _) hl fun cancelled l₁ h₁ => ?_
  refine hushed lenient_commitsIf (hcancel ..) h₁ fun _ l₂ h₂ => ?_
  refine hushed lenient_commitsIf (still_query _) h₂ fun total l₃ h₃ => ?_
  refine hushed lenient_commitsIf (still_command _) h₃ fun _ l₄ h₄ => ?_
  refine hushed lenient_commitsIf ((still_command _).bind fun _ => trivial) h₄ fun dismissed l₅ h₅ => ?_
  refine commits h₅ fun l₆ h₆ => readBack lenient_commitsIf h₆ fun s l₇ h₇ => ?_
  exact .inl ⟨trivial, h₇⟩

theorem checkout {sessionId restaurantId : Uuid} {loaded : List TableSession} (hl : Hushed P l) :
    Watch owner req d₀ t anyEvent anywhere (SessionService.checkout sessionId restaurantId loaded)
      (CommitsIf P fun result => result.isSome = true) l := by
  unfold SessionService.checkout
  refine hushed lenient_commitsIf (still_command _) hl fun rows l₁ h₁ => ?_
  split
  · exact .inr ⟨by simp, h₁⟩
  · refine owes lenient_commitsIf (settle h₁) (fun result l₂ _ h₂ => .inl ⟨rfl, h₂⟩) ?_
    exact fun result l₂ hn => absurd trivial hn

theorem restoreAbandoned {tableSession : TableSession} {restaurantId : Uuid} (hl : Hushed P l) :
    Watch owner req d₀ t anyEvent anywhere (SessionService.restoreAbandoned tableSession restaurantId)
      (CommitsIf P fun _ => True) l := by
  unfold SessionService.restoreAbandoned
  refine hushed lenient_commitsIf (still_findOpenSession ..) hl fun found l₁ h₁ => ?_
  cases found with
  | none =>
    unfold SessionService.restoreToOpen
    refine hushed lenient_commitsIf (still_command _) h₁ fun rows l₂ h₂ => ?_
    split
    · exact .inr h₂
    · refine commits h₂ fun l₃ h₃ => readBack lenient_commitsIf h₃ fun s l₄ h₄ => ?_
      exact .inl ⟨trivial, h₄⟩
  | some _ =>
    unfold SessionService.directCheckout
    refine hushed lenient_commitsIf (still_command _) h₁ fun rows l₂ h₂ => ?_
    split
    · exact .inr h₂
    · refine owes lenient_commitsIf (settle h₂) (fun result l₃ _ h₃ => .inl ⟨trivial, h₃⟩) ?_
      exact fun result l₃ hn => absurd trivial hn

theorem restore {sessionId restaurantId : Uuid} (hl : Hushed P l) :
    Watch owner req d₀ t anyEvent anywhere (SessionService.restore sessionId restaurantId)
      (CommitsIf P fun result => result.isSome = true) l := by
  unfold SessionService.restore
  refine hushed lenient_commitsIf (still_query _) hl fun row l₁ h₁ => ?_
  cases row with
  | none => exact .inr ⟨by simp, h₁⟩
  | some tableSession =>
    simp only
    split
    · exact .inr h₁
    · cases tableSession.abandonedAt with
      | none => exact .inr h₁
      | some abandonedAt =>
        refine hushed lenient_commitsIf still_appNow h₁ fun now l₂ h₂ => ?_
        split
        · exact .inr h₂
        · refine owes lenient_commitsIf (restoreAbandoned h₂) (fun result l₃ _ h₃ => .inl ⟨rfl, h₃⟩) ?_
          exact fun result l₃ hn => absurd trivial hn

end Operations

end Watch.Prompt

end QOrder
