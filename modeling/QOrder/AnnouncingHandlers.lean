import QOrder.Announcing

/-! The handlers, one by one: a guest's opens a session where there is none, and each commits one
change at most, which it announces before it ends. -/

namespace QOrder

open KeyedTable Concurrency

variable {n : Nat} {owner : Uuid → Uuid} {req : Fin n → Request} {d₀ : Data} {t : Fin n}
  {l l' : List (Event n)} {e : Event n} {α β : Type} {P : Event n → Prop}

def Event.SessionsOnly (e : Event n) : Prop :=
  e.after.orders = e.before.orders ∧ e.after.items = e.before.items ∧ e.after.calls = e.before.calls

/-- The requests that open a session where they find none. -/
def Request.opens : Request → Bool
  | .getSessionSnapshot _ | .createOrder _ _ | .cancelItemCustomer _ _ _ | .callStaff _ | .openTable _ _
  | .wsCustomer _ => true
  | _ => false

/-- The commits that a request need not announce. -/
def Request.Mutes (r : Request) (e : Event n) : Prop := r.opens = true ∧ e.SessionsOnly

abbrev Reads (p : Action α) : Prop := p.Keeps (fun q => q.isCommand = false ∧ q.Still) fun _ => True

section Reads

theorem reads_query (q : Query) : Reads (Action.query q) := .call ⟨rfl, rfl, id⟩ fun _ => trivial

theorem reads_resolveTable (qrToken : String) : Reads (Customer.resolveTable qrToken) := by
  refine (reads_query _).bind fun table => ?_
  cases table with
  | none => trivial
  | some table =>
    refine (reads_query _).bind fun restaurant => ?_
    cases restaurant <;> trivial

theorem reads_resolveQrToken (qrToken : String) : Reads (Gateway.resolveQrToken qrToken) := by
  refine (reads_query _).bind fun table => ?_
  cases table with
  | none => trivial
  | some table =>
    refine (reads_query _).bind fun restaurant => ?_
    cases restaurant <;> trivial

theorem reads_findOpenSession (tableId : Uuid) (loaded : List TableSession) :
    Reads (findOpenSession tableId loaded) := by
  refine (reads_query _).bind fun rows => ?_
  refine Prog.Keeps.bind ?_ fun _ => trivial
  match rows with
  | [] | [_] | _ :: _ :: _ => trivial

end Reads

namespace Watch.Prompt

variable {post : Except Exn α → List (Event n) → Prop}

theorem reads {p : Action β} {f : β → Action α} (hpost : Lenient P post) (hp : Reads p) (hi : Idle l)
    (hl : Hushed P l)
    (hok : ∀ a l', Idle l' → Hushed P l' → Watch owner req d₀ t anyEvent anywhere (f a) post l') :
    Watch owner req d₀ t anyEvent anywhere (p >>= f) post l := by
  have hkeeps : Watch owner req d₀ t anyEvent anywhere p
      (fun r l' => (Idle l' ∧ Hushed P l') ∧ ∀ e, r = .error e → True) l := by
    refine Along.of_keeps hp ⟨hi, hl⟩ (fun _ _ _ _ => trivial) ?_
    rintro l q r v ⟨hi, hl⟩ ⟨hc, hq⟩ ⟨⟨σ, σ', -, -, -, -, rfl⟩, -⟩
    exact ⟨hi.snoc hc, hl.still hq⟩
  exact Along.bind hkeeps (fun a l' h => hok a l' h.1.1 h.1.2) fun e l' h => hpost.hushed e l' h.1.2

/-- The commit of a new session, the only row of its transaction. -/
theorem commitNew {s : TableSession} {f : SessionService.Opened → Action α}
    (hpost : Lenient Event.SessionsOnly post) (hi : Idle l) (hl : Hushed Event.SessionsOnly (l ++ [e]))
    (hends : e.ends = false) (hrows : e.rows = { sessions := [s] })
    (hok : ∀ opened l', Hushed Event.SessionsOnly l' →
      Watch owner req d₀ t anyEvent anywhere (f opened) post l') :
    Watch owner req d₀ t anyEvent anywhere (SessionService.commitNew { sessions := [s] } >>= f) post
      (l ++ [e]) := by
  simp only [SessionService.commitNew, List.head?_cons, Action.scalarOne, Prog.pure_def, Prog.ret_bind,
    bind_assoc]
  refine commit trivial fun σ _ htr hown _ => ?_
  have hview : σ.view t = σ.data.overlay { sessions := [s] } := by
    rw [htr.view_rows hown hi hends, hrows]
  have honly : (σ.event t .commit (.ok ()) (σ.view t)).SessionsOnly := by
    rw [hview]
    exact ⟨overlay_nil _, overlay_nil _, overlay_nil _⟩
  refine hushed hpost (still_query _) (hl.snoc id fun _ => honly) fun row l₂ h₂ => ?_
  exact hushed hpost (still_scalarOne _) h₂ fun s' l₃ h₃ => hok _ l₃ h₃

theorem getOrOpen {tableId restaurantId : Uuid} {openedBy : Option Uuid}
    {f : SessionService.Opened → Action α} (hpost : Lenient Event.SessionsOnly post) (hi : Idle l)
    (hl : Hushed Event.SessionsOnly l)
    (hok : ∀ opened l', Hushed Event.SessionsOnly l' →
      Watch owner req d₀ t anyEvent anywhere (f opened) post l') :
    Watch owner req d₀ t anyEvent anywhere
      (SessionService.getOrOpen tableId restaurantId openedBy >>= f) post l := by
  simp only [SessionService.getOrOpen, bind_assoc]
  refine reads hpost (reads_findOpenSession ..) hi hl fun found l₁ hi₁ h₁ => ?_
  cases found with
  | some existing => exact hok _ l₁ h₁
  | none =>
    simp only [bind_assoc]
    refine attempt trivial (fun σ _ _ _ _ _ => ?_) fun σ x _ _ _ _ _ => ?_
    · exact commitNew hpost hi₁ (h₁.still ⟨rfl, id⟩) rfl rfl hok
    · have h₂ := h₁.still (e := σ.event t
        (.command (.insertSession restaurantId tableId openedBy)) (.error x) σ.data) ⟨rfl, id⟩
      cases x with
      | uniqueViolation =>
        simp only [SessionService.recoverRace, bind_assoc]
        refine rollback trivial fun σ₁ _ _ _ _ => ?_
        refine hushed hpost (still_findOpenSession ..) (h₂.still ⟨rfl, id⟩) fun found l₃ h₃ => ?_
        cases found with
        | none => exact hpost.hushed _ _ h₃
        | some existing => exact hok _ l₃ h₃
      | _ => exact hpost.hushed _ _ h₂

section Handlers

theorem getSessionSnapshot {qrToken : String} : Watch owner req d₀ t anyEvent anywhere
    (Customer.getSessionSnapshot qrToken) (Finishes Event.SessionsOnly) [] := by
  unfold Customer.getSessionSnapshot
  refine reads lenient_finishes (reads_resolveTable _) .nil .nil fun found l₁ hi₁ h₁ => ?_
  refine getOrOpen lenient_finishes hi₁ h₁ fun opened l₂ h₂ => ?_
  exact hushed lenient_finishes (still_query _) h₂ fun items l₃ h₃ => .inr (.inl h₃)

theorem openTable {user : TokenPayload} {tableId : Uuid} : Watch owner req d₀ t anyEvent anywhere
    (StaffTables.openTable user tableId) (Finishes Event.SessionsOnly) [] := by
  unfold StaffTables.openTable
  refine reads lenient_finishes (reads_query _) .nil .nil fun table l₁ hi₁ h₁ => ?_
  cases table with
  | none => exact .inr (.inl h₁)
  | some table =>
    simp only
    split
    · exact getOrOpen lenient_finishes hi₁ h₁ fun opened l₂ h₂ => .inr (.inl h₂)
    · exact .inr (.inl h₁)

theorem wsCustomer {qrToken : String} : Watch owner req d₀ t anyEvent anywhere
    (Gateway.wsCustomer qrToken) (Finishes Event.SessionsOnly) [] := by
  unfold Gateway.wsCustomer
  refine reads lenient_finishes (reads_resolveQrToken _) .nil .nil fun found l₁ hi₁ h₁ => ?_
  cases found with
  | none => exact .inr (.inl h₁)
  | some found => exact getOrOpen lenient_finishes hi₁ h₁ fun opened l₂ h₂ => .inr (.inl h₂)

theorem createOrder {qrToken : String} {body : CreateOrderRequest} : Watch owner req d₀ t anyEvent anywhere
    (Customer.createOrder qrToken body) (Finishes Event.SessionsOnly) [] := by
  unfold Customer.createOrder
  refine reads lenient_finishes (reads_resolveTable _) .nil .nil fun found l₁ hi₁ h₁ => ?_
  refine getOrOpen lenient_finishes hi₁ h₁ fun opened l₂ h₂ => ?_
  split
  · exact .inr (.inl h₂)
  · refine hushed lenient_finishes (still_read ..) h₂ fun restaurantId l₃ h₃ => ?_
    refine hushed lenient_finishes (still_validateItems ..) h₃ fun menuItems l₄ h₄ => ?_
    refine owes lenient_finishes (placeOrder h₄) (fun placed l₅ _ h₅ => ?_) fun _ _ hn => absurd trivial hn
    refine owing_query h₅ fun row l₆ h₆ => required lenient_finishes fun order => ?_
    refine refreshItems lenient_finishes h₆ fun items l₇ h₇ => ?_
    simp only [Customer.publishOrder, bind_assoc]
    exact herald h₇

theorem cancelItemCustomer {qrToken : String} {itemId : Uuid} {reason : Option String} :
    Watch owner req d₀ t anyEvent anywhere (Customer.cancelItemCustomer qrToken itemId reason)
      (Finishes Event.SessionsOnly) [] := by
  unfold Customer.cancelItemCustomer
  refine reads lenient_finishes (reads_resolveTable _) .nil .nil fun found l₁ hi₁ h₁ => ?_
  refine getOrOpen lenient_finishes hi₁ h₁ fun opened l₂ h₂ => ?_
  refine hushed lenient_finishes (still_read ..) h₂ fun restaurantId l₃ h₃ => ?_
  refine hushed lenient_finishes (still_query _) h₃ fun known l₄ h₄ => ?_
  split
  · refine owes lenient_finishes (translated rfl (updateItem h₄)) (fun item l₅ _ h₅ => ?_) fun _ _ hn =>
      absurd trivial hn
    simp only [Customer.publishCancelled, bind_assoc]
    exact herald h₅
  · exact .inr (.inl h₄)

theorem callStaff {qrToken : String} : Watch owner req d₀ t anyEvent anywhere
    (Customer.callStaff qrToken) (Finishes Event.SessionsOnly) [] := by
  unfold Customer.callStaff
  refine reads lenient_finishes (reads_resolveTable _) .nil .nil fun found l₁ hi₁ h₁ => ?_
  refine getOrOpen lenient_finishes hi₁ h₁ fun opened l₂ h₂ => ?_
  refine hushed lenient_finishes (still_read ..) h₂ fun tableId l₃ h₃ => ?_
  unfold StaffCallService.create
  refine hushed lenient_finishes ((still_query _).bind fun _ => trivial) h₃ fun cooldown l₄ h₄ => ?_
  refine hushed lenient_finishes (still_query _) h₄ fun recent l₅ h₅ => ?_
  split
  · exact .inr (.inl h₅)
  · refine owes lenient_finishes (insertCall h₅) (fun call l₆ _ h₆ => ?_) fun _ _ hn => absurd trivial hn
    simp only [StaffCallService.publishNew, bind_assoc]
    exact herald h₆

theorem publishUpdated {restaurantId : Uuid} {item : OrderItem} {event : RealtimeEvent} {answer : α}
    (hl : Owing P l) : Watch owner req d₀ t anyEvent anywhere
      (do Kitchen.publishUpdated restaurantId item event; return answer) (Finishes P) l := by
  simp only [Kitchen.publishUpdated, bind_assoc]
  exact owing_query hl fun row l₁ h₁ => required lenient_finishes fun order => herald h₁

theorem setItemStatus {user : TokenPayload} {itemId : Uuid} {toStatus : OrderItemStatus} :
    Watch owner req d₀ t anyEvent anywhere (Kitchen.setItemStatus user itemId toStatus) (Finishes P) [] := by
  unfold Kitchen.setItemStatus
  refine hushed lenient_finishes (still_query _) .nil fun known l₁ h₁ => ?_
  split
  · refine owes lenient_finishes (translated rfl (setStatus h₁)) (fun item l₂ _ h₂ => ?_) fun _ _ hn =>
      absurd trivial hn
    exact publishUpdated h₂
  · exact .inr (.inl h₁)

theorem cancelItemStaff {user : TokenPayload} {itemId : Uuid} {reason : Option String} :
    Watch owner req d₀ t anyEvent anywhere (Kitchen.cancelItemStaff user itemId reason) (Finishes P) [] := by
  unfold Kitchen.cancelItemStaff
  refine hushed lenient_finishes (still_query _) .nil fun known l₁ h₁ => ?_
  split
  · refine owes lenient_finishes (translated rfl (updateItem h₁)) (fun item l₂ _ h₂ => ?_) fun _ _ hn =>
      absurd trivial hn
    exact publishUpdated h₂
  · exact .inr (.inl h₁)

theorem ackStaffCall {user : TokenPayload} {callId : Uuid} : Watch owner req d₀ t anyEvent anywhere
    (Kitchen.ackStaffCall user callId) (Finishes P) [] := by
  have hack : Watch owner req d₀ t anyEvent anywhere
      (StaffCallService.ack callId user.sub user.restaurantId) (Finishes P) [] := by
    unfold StaffCallService.ack
    refine hushed lenient_finishes (still_query _) .nil fun row l₁ h₁ => ?_
    cases row with
    | none => exact .inr (.inl h₁)
    | some call =>
      simp only
      split
      · exact .inr (.inl h₁)
      · refine owes lenient_finishes (acknowledge h₁) (fun call l₂ _ h₂ => ?_) fun _ _ hn => absurd trivial hn
        simp only [StaffCallService.publishAck, bind_assoc]
        exact herald h₂
  refine hack.translate (fun call l' h => h.imp_left fun he => ?_) fun x l' h => h.imp_left fun he => ?_
  · cases he
  · cases he
    rfl

theorem checkoutSession {user : TokenPayload} {sessionId : Uuid} : Watch owner req d₀ t anyEvent anywhere
    (StaffTables.checkoutSession user sessionId) (Finishes P) [] := by
  unfold StaffTables.checkoutSession
  refine hushed lenient_finishes (still_query _) .nil fun row l₁ h₁ => ?_
  cases row with
  | none => exact .inr (.inl h₁)
  | some tableSession =>
    refine owes lenient_finishes (checkout h₁) (fun result l₂ hy h₂ => ?_) fun result l₂ hn h₂ => ?_
    · obtain ⟨result, rfl⟩ := Option.isSome_iff_exists.mp hy
      simp only [StaffTables.publishClosed, bind_assoc]
      exact herald h₂
    · rw [Option.not_isSome_iff_eq_none.mp hn]
      exact .inr (.inl h₂)

theorem restoreSession {user : TokenPayload} {sessionId : Uuid} : Watch owner req d₀ t anyEvent anywhere
    (StaffTables.restoreSession user sessionId) (Finishes P) [] := by
  unfold StaffTables.restoreSession
  refine owes lenient_finishes (translated rfl (restore .nil)) (fun result l₁ hy h₁ => ?_) fun result l₁ hn h₁ => ?_
  · obtain ⟨result, rfl⟩ := Option.isSome_iff_exists.mp hy
    simp only [StaffTables.publishRestored]
    cases result.action with
    | restored =>
      simp only [bind_assoc]
      exact herald h₁
    | checkedOut =>
      simp only [StaffTables.publishClosed, bind_assoc]
      exact herald h₁
  · rw [Option.not_isSome_iff_eq_none.mp hn]
    exact .inr (.inl h₁)

theorem abandonSession {sessionId restaurantId : Uuid} {answer : α} (hl : Hushed P l) :
    Watch owner req d₀ t anyEvent anywhere
      (do Scheduler.abandonSession sessionId restaurantId; return answer) (Finishes P) l := by
  simp only [Scheduler.abandonSession, bind_assoc]
  refine hushed lenient_finishes (still_command _) hl fun rows l₁ h₁ => ?_
  split
  · exact .inr (.inl h₁)
  · simp only [bind_assoc]
    refine hushed lenient_finishes (still_command _) h₁ fun _ l₂ h₂ => ?_
    refine hushed lenient_finishes ((still_command _).bind fun _ => trivial) h₂ fun _ l₃ h₃ => ?_
    refine commits h₃ fun l₄ h₄ => ?_
    simp only [Scheduler.publishAbandoned, bind_assoc]
    exact herald h₄

theorem wrapped {a : Action β} {f : β → α} (h : Watch owner req d₀ t anyEvent anywhere a (Finishes P) []) :
    Watch owner req d₀ t anyEvent anywhere (a >>= fun b => pure (f b)) (Finishes P) [] := by
  refine Along.bind h (fun b l' hb => hb.imp_left fun he => ?_) fun e l' he => he.imp_left fun he => ?_
  · cases he
  · cases he
    rfl

/-- Every request but the sweep. -/
theorem handler_finishes (hsweep : req t ≠ .runSweep) :
    Watch owner req d₀ t anyEvent anywhere (req t).handler (Finishes (req t).Mutes) [] := by
  have opening (hopens : (req t).opens = true)
      (h : Watch owner req d₀ t anyEvent anywhere (req t).handler (Finishes Event.SessionsOnly) []) :
      Watch owner req d₀ t anyEvent anywhere (req t).handler (Finishes (req t).Mutes) [] :=
    Along.mono h fun _ _ he => he.mono fun _ honly => ⟨hopens, honly⟩
  cases hreq : req t with
  | getSessionSnapshot qrToken =>
    rw [hreq] at opening
    exact opening rfl (wrapped getSessionSnapshot)
  | createOrder qrToken body =>
    rw [hreq] at opening
    exact opening rfl (wrapped createOrder)
  | cancelItemCustomer qrToken itemId reason =>
    rw [hreq] at opening
    exact opening rfl (wrapped cancelItemCustomer)
  | callStaff qrToken =>
    rw [hreq] at opening
    exact opening rfl (wrapped callStaff)
  | openTable user tableId =>
    rw [hreq] at opening
    exact opening rfl (wrapped openTable)
  | wsCustomer qrToken =>
    rw [hreq] at opening
    exact opening rfl (wrapped wsCustomer)
  | setItemStatus user itemId toStatus => exact wrapped setItemStatus
  | cancelItemStaff user itemId reason => exact wrapped cancelItemStaff
  | ackStaffCall user callId => exact wrapped ackStaffCall
  | checkoutSession user sessionId => exact wrapped checkoutSession
  | restoreSession user sessionId => exact wrapped restoreSession
  | runSweep => exact absurd hreq hsweep
  | abandonSession sessionId =>
    refine hushed lenient_finishes (still_query _) .nil fun row l₁ h₁ => ?_
    cases row with
    | none => exact .inr (.inl h₁)
    | some row => exact abandonSession h₁

/-- The sweep makes an attempt at each of the sessions it has listed. -/
theorem runSweep : Watch owner req d₀ t anyEvent anywhere Scheduler.runSweep (fun _ l =>
    ∃ e turns rows, l = e :: turns.flatten ∧ e.stmt.Still ∧ e.rows = {} ∧ List.Forall₂ Attempt rows turns) [] := by
  unfold Scheduler.runSweep
  refine query trivial fun σ _ _ _ _ => ?_
  cases hrows : Query.eval (σ.ctx t) σ.catalog (σ.view t) .staleSessions with
  | error x => exact ⟨_, [], [], rfl, ⟨rfl, id⟩, rfl, .nil⟩
  | ok rows =>
    have hb : Blank ([] ++ [σ.event t (.query .staleSessions) (.ok (.ok rows)) σ.data]) := by
      rw [Blank, current_snoc]
      rfl
    refine (sweepRows hb fun _ _ _ => trivial).mono ?_
    rintro r l' ⟨-, turns, rfl, hturns⟩
    exact ⟨_, turns, rows, rfl, ⟨rfl, id⟩, rfl, hturns⟩

end Handlers

end Watch.Prompt

end QOrder
