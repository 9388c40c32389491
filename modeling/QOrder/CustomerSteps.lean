import QOrder.Watch
import QOrder.OneOpen

/-! The steps every customer endpoint begins with, along the events of its client:
resolving the token and getting the open session of the table. -/

namespace QOrder

open KeyedTable Concurrency

variable {n : Nat} {owner : Uuid → Uuid} {req : Fin n → Request} {d₀ : Data} {t : Fin n}
  {l l' : List (Event n)} {e : Event n} {α : Type} {tableId restaurantId k : Uuid}

/-- The client has met the session, open at the table. -/
def Met (tableId k : Uuid) (l : List (Event n)) : Prop := ∃ e ∈ l, OpenAt tableId k e.after

theorem Met.mono (h : Met tableId k l) (hl : l ⊆ l') : Met tableId k l' := by
  obtain ⟨e, he, hs⟩ := h
  exact ⟨e, hl he, hs⟩

/-- The statements that resolve a token and open a session. -/
def Stmt.opens : Stmt → Bool
  | .query (.tableByToken _) | .query (.activeRestaurant _) | .query (.openSessions _)
  | .query (.sessionById _) | .command (.insertSession _ _ _) | .commit | .rollback => true
  | _ => false

/-- The client has gone on by such statements only. -/
def Opening (l l' : List (Event n)) : Prop := ∃ m, l' = l ++ m ∧ ∀ e ∈ m, e.stmt.opens = true

namespace Opening

theorem refl (l : List (Event n)) : Opening l l := ⟨[], by simp, by simp⟩

theorem snoc (h : Opening l l') (he : e.stmt.opens = true) : Opening l (l' ++ [e]) := by
  obtain ⟨m, rfl, hm⟩ := h
  refine ⟨m ++ [e], by simp, fun x hx => ?_⟩
  rcases List.mem_append.mp hx with hx | hx
  · exact hm x hx
  · exact List.mem_singleton.mp hx ▸ he

theorem trans {l₁ l₂ l₃ : List (Event n)} (h : Opening l₁ l₂) (h' : Opening l₂ l₃) :
    Opening l₁ l₃ := by
  obtain ⟨m, rfl, hm⟩ := h
  obtain ⟨m', rfl, hm'⟩ := h'
  refine ⟨m ++ m', by simp, fun x hx => ?_⟩
  exact (List.mem_append.mp hx).elim (hm x) (hm' x)

end Opening

namespace Watch

variable {V : Event n → Prop} {I : List (Event n) → Stmt → Prop}
  {post : Except Exn α → List (Event n) → Prop}

section

variable (herr : ∀ e l, post (.error e) l)

include herr

theorem scalarOne {β : Type} {a : Option β} {f : β → Action α}
    (hok : ∀ b, a = some b → Watch owner req d₀ t V I (f b) post l) :
    Watch owner req d₀ t V I (Action.scalarOne a >>= f) post l := by
  cases a with
  | none => exact herr _ l
  | some b => exact hok b rfl

variable (hq : ∀ l q, I l (.query q))

include hq

theorem resolve {qrToken : String} {f : Table × Restaurant → Action α} (hidle : Idle l)
    (hok : ∀ table restaurant l', restaurant.id = owner table.id → Idle l' → Opening l l' →
      Watch owner req d₀ t V I (f (table, restaurant)) post l') :
    Watch owner req d₀ t V I (Customer.resolveTable qrToken >>= f) post l := by
  simp only [Customer.resolveTable, bind_assoc]
  refine query (hq _ _) fun σ hi _ _ _ => ?_
  rw [Query.eval]
  cases htab : σ.catalog.activeTable qrToken with
  | none => exact herr _ _
  | some table =>
    simp only [bind_assoc]
    refine query (hq _ _) fun σ₁ _ _ _ _ => ?_
    rw [Query.eval]
    cases hres : σ₁.catalog.restaurants.find? fun r => r.id == table.restaurantId && r.isActive with
    | none => exact herr _ _
    | some restaurant =>
      have hid : restaurant.id = table.restaurantId := by
        have hp := List.find?_some hres
        simp only [Bool.and_eq_true, beq_iff_eq] at hp
        exact hp.1
      have hown := hi.owned table (List.mem_of_find?_eq_some htab)
      exact hok table restaurant _ (hid.trans hown) ((hidle.snoc rfl).snoc rfl)
        (((Opening.refl l).snoc rfl).snoc rfl)

omit herr in
theorem findOpen {f : Option TableSession → Action α} (hidle : Idle l)
    (hnone : ∀ e : Event n, e.stmt.opens = true → e.stmt.isCommand = false →
      Watch owner req d₀ t V I (f none) post (l ++ [e]))
    (hsome : ∀ (e : Event n) s, e.stmt.opens = true → e.stmt.isCommand = false →
      OpenAt tableId s.id e.after → Watch owner req d₀ t V I (f (some s)) post (l ++ [e])) :
    Watch owner req d₀ t V I (findOpenSession tableId [] >>= f) post l := by
  simp only [findOpenSession, bind_assoc]
  refine query (hq _ _) fun σ hi ht hl _ => ?_
  rw [ht.view (hl ▸ hidle), Query.eval]
  rcases openSessions_eq hi.ok tableId with ⟨-, he⟩ | ⟨s, hs, hst, ho, he⟩
  · simp only [he, Action.scalarOneOrNone, Prog.pure_def, Prog.ret_bind, Option.map_none]
    exact hnone _ rfl rfl
  · simp only [he, Action.scalarOneOrNone, Prog.pure_def, Prog.ret_bind, Option.map_some]
    exact hsome _ s rfl rfl ⟨s, hi.ok.mem_sessions.mp hs, hst, ho⟩

theorem commitNew {s : TableSession} {f : SessionService.Opened → Action α} (hidle : Idle l)
    (he : e.stmt.opens = true) (hends : e.ends = false) (hrows : e.rows = { sessions := [s] })
    (ht : s.tableId = tableId) (ho : s.status = .opened) (hcommit : I (l ++ [e]) .commit)
    (hok : ∀ opened l', Met tableId opened.session.id l' → Idle l' → Opening l l' →
      Watch owner req d₀ t V I (f opened) post l') :
    Watch owner req d₀ t V I (SessionService.commitNew { sessions := [s] } >>= f) post (l ++ [e]) := by
  simp only [SessionService.commitNew, List.head?_cons, Action.scalarOne, Prog.pure_def,
    Prog.ret_bind, bind_assoc]
  refine commit hcommit fun σ _ htr hl _ => ?_
  have hlook : lookup s.id (σ.view t).sessions = some s := by
    rw [htr.view_rows hl hidle hends, hrows]
    simp [lookup_singleton]
  refine query (hq _ _) fun σ₁ _ _ _ _ => scalarOne herr fun row hrow => ?_
  have hk : row.id = s.id := key_of_lookup hrow
  refine hok ⟨row, false⟩ _ ?_ ((Idle.ended _ rfl).snoc rfl)
    ((((Opening.refl l).snoc he).snoc rfl).snoc rfl)
  exact ⟨_, List.mem_append_left _ (List.mem_append_right _ List.mem_cons_self), s, hk ▸ hlook, ht, ho⟩

/-- `I` has to allow the commit of a new session, the only write of its transaction. -/
theorem getOrOpen {openedBy : Option Uuid} {f : SessionService.Opened → Action α} (hidle : Idle l)
    (hcmd : ∀ l, I l (.command (.insertSession restaurantId tableId openedBy)))
    (hroll : ∀ l, I l .rollback)
    (hcommit : ∀ (l : List (Event n)) e s, Idle l → e.ends = false → e.rows = { sessions := [s] } →
      I (l ++ [e]) .commit)
    (hok : ∀ opened l', Met tableId opened.session.id l' → Idle l' → Opening l l' →
      Watch owner req d₀ t V I (f opened) post l') :
    Watch owner req d₀ t V I
      (SessionService.getOrOpen tableId restaurantId openedBy >>= f) post l := by
  simp only [SessionService.getOrOpen, bind_assoc]
  refine findOpen hq hidle (fun e he hc => ?_) fun e s he hc ho => ?_
  · simp only [bind_assoc]
    refine attempt (hcmd _) (fun σ _ _ _ _ _ => ?_) fun σ x _ _ _ _ _ => ?_
    · refine commitNew herr hq (hidle.snoc hc) rfl rfl rfl rfl rfl
        (hcommit _ _ _ (hidle.snoc hc) rfl rfl) fun opened l' hm hi hl => ?_
      exact hok opened l' hm hi (((Opening.refl l).snoc he).trans hl)
    · cases x with
      | uniqueViolation =>
        simp only [SessionService.recoverRace, bind_assoc]
        refine rollback (hroll _) fun σ₁ _ _ _ _ => ?_
        refine findOpen hq (Idle.ended _ rfl) (fun e' _ _ => herr _ _) fun e' s he' hc' ho => ?_
        simp only [Prog.pure_def, Prog.ret_bind]
        exact hok ⟨s, true⟩ _ ⟨e', List.mem_append_right _ List.mem_cons_self, ho⟩
          ((Idle.ended _ rfl).snoc hc')
          (((((Opening.refl l).snoc he).snoc rfl).snoc rfl).snoc he')
      | _ => exact herr _ _
  · simp only [Prog.pure_def, Prog.ret_bind]
    exact hok ⟨s, false⟩ _ ⟨e, List.mem_append_right _ List.mem_cons_self, ho⟩ (hidle.snoc hc)
      ((Opening.refl l).snoc he)

end

end Watch

end QOrder
