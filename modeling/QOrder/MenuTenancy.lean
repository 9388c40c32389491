import QOrder.TableRegions

/-! The menu item of an order item is one of the item's restaurant: an order only inserts what
it has found on the menu of its restaurant. -/

namespace QOrder

open KeyedTable Concurrency Concurrency.Prog QOrder.Action

variable {n : Nat} {owner : Uuid → Uuid} {req : Fin n → Request} {D : Deployment owner}
  {p p' : Clients n} {dish : Uuid → Uuid → Prop} {d : Data} {c : Catalog} {σ : Sys n} {t : Fin n}
  {q : Stmt} {α : Type}

/-- All rows in one region: nothing but the menu items of the items matters. -/
def oneRegion (dish : Uuid → Uuid → Prop) : Atlas Unit where
  table _ := ()
  session _ := ()
  order _ := ()
  item _ := ()
  call _ := ()
  restaurant _ := none
  token _ _ := True
  dish := dish

/-- Every menu item of the catalog is one of its restaurant. -/
def Catalog.Dishes (dish : Uuid → Uuid → Prop) (c : Catalog) : Prop :=
  ∀ x ∈ c.menuItems, dish x.id x.restaurantId

def Data.Dishes (dish : Uuid → Uuid → Prop) (d : Data) : Prop :=
  ∀ i ∈ d.items, dish i.menuItemId i.restaurantId

theorem near_one {rid : Uuid} : (oneRegion dish).Near rid () := by
  intro x hx
  cases hx

theorem Data.Dishes.placed (h : d.Dishes dish) : d.Placed (oneRegion dish) where
  session _ _ := ⟨rfl, near_one⟩
  order _ _ := ⟨rfl, near_one⟩
  item i hi := ⟨rfl, near_one, h i hi⟩
  call _ _ := ⟨rfl, rfl, near_one⟩

theorem Catalog.Dishes.charted (h : c.Dishes dish) : c.Charted (oneRegion dish) () where
  token _ _ := ⟨rfl, near_one⟩
  table _ _ := near_one
  menuItem := h

/-- A statement that inserts no item of a menu item of another restaurant. -/
def Stmt.Dishes (dish : Uuid → Uuid → Prop) (q : Stmt) : Prop :=
  q.Within (oneRegion dish) () ∨ q = .query .staleSessions

abbrev ServesOwn (dish : Uuid → Uuid → Prop) (a : Action α) : Prop :=
  a.Guarded (Stmt.Dishes dish) (Stmt.Answers (oneRegion dish) ()) fun _ => True

theorem KeepsTo.servesOwn {a : Action α} {post : α → Prop} (h : KeepsTo (oneRegion dish) () a post) :
    ServesOwn dish a :=
  (Guarded.weaken h fun _ => .inl).mono fun _ _ => trivial

theorem servesOwn_abandonSession (k rid : Uuid) : ServesOwn dish (Scheduler.abandonSession k rid) := by
  have hkeeps : KeepsTo (oneRegion dish) () (Scheduler.abandonSession k rid) fun _ => True := by
    refine KeepsTo.command rfl fun rows _ => ?_
    cases rows.sessions.head? with
    | none => trivial
    | some _ =>
      refine KeepsTo.command rfl fun _ _ => (keepsTo_dismissPending rfl).bind fun _ _ => ?_
      exact keepsTo_commit.bind fun _ _ => keepsTo_publishBoth ..
  exact hkeeps.servesOwn

theorem servesOwn_sweepRows (rows : List StaleSession) : ServesOwn dish (Scheduler.sweepRows rows) := by
  induction rows with
  | nil => trivial
  | cons row rows ih =>
    have hrow : ServesOwn dish (Prog.tryCatch (Scheduler.abandonSession row.id row.restaurantId) fun _ => rollback) :=
      (servesOwn_abandonSession ..).tryCatch fun _ => KeepsTo.servesOwn keepsTo_rollback
    exact hrow.bind fun _ _ => ih

theorem servesOwn_query (q : Query) (hq : (Stmt.query q).Dishes dish) : ServesOwn dish (query q) :=
  .call hq fun _ _ => trivial

/-- What a request names is of the one region there is. -/
theorem Request.within_one {r : Request} (hr : r ≠ .runSweep ∧ ∀ k, r ≠ .abandonSession k) :
    r.Within (oneRegion dish) () := by
  cases r with
  | openTable user k => exact ⟨.inl rfl, near_one⟩
  | runSweep => exact absurd rfl hr.1
  | abandonSession k => exact absurd rfl (hr.2 k)
  | setItemStatus | cancelItemStaff | ackStaffCall | checkoutSession | restoreSession => exact .inl rfl
  | getSessionSnapshot | createOrder | cancelItemCustomer | callStaff | wsCustomer => trivial

theorem Request.servesOwn (r : Request) : ServesOwn dish r.handler := by
  by_cases hr : r ≠ .runSweep ∧ ∀ k, r ≠ .abandonSession k
  · exact (Request.keepsTo (Request.within_one hr)).servesOwn
  · cases r with
    | runSweep =>
      have hsweep : ServesOwn dish Scheduler.runSweep := by
        refine (servesOwn_query .staleSessions (.inr rfl)).bind fun rows _ => ?_
        match rows with
        | .error e => trivial
        | .ok rows => exact servesOwn_sweepRows rows
      exact hsweep.bind fun _ _ => trivial
    | abandonSession k =>
      refine (servesOwn_query (.sessionById k) (.inl rfl)).bind fun row _ => ?_
      cases row with
      | none => trivial
      | some row => exact (servesOwn_abandonSession row.id row.restaurantId).bind fun _ _ => trivial
    | _ => exact absurd ⟨by simp, by simp⟩ hr

/-- The items of the table and of the open transactions are of menu items of their restaurants. -/
structure Sys.Dishes (dish : Uuid → Uuid → Prop) (σ : Sys n) : Prop where
  data : σ.data.Placed (oneRegion dish)
  writes : ∀ t, (σ.writes t).Placed (oneRegion dish)

namespace Sys.Dishes

theorem view (h : σ.Dishes dish) : (σ.view t).Placed (oneRegion dish) := h.data.overlay (h.writes t)

theorem record (h : σ.Dishes dish) (r : Except DbError q.Resp) {σ' : Sys n}
    (hd : σ'.data.Placed (oneRegion dish)) {w : Data} (hw : w.Placed (oneRegion dish))
    (hwrites : σ'.writes = Function.update σ.writes t w) : (σ.record t q r σ').Dishes dish where
  data := hd
  writes u := by
    change (σ'.writes u).Placed _
    rw [hwrites]
    by_cases hu : u = t
    · subst hu
      rw [Function.update_self]
      exact hw
    · rw [Function.update_of_ne hu]
      exact h.writes u

theorem exec (h : σ.Dishes dish) (hc : σ.catalog.Dishes dish) (hq : q.Dishes dish)
    {r : Except DbError q.Resp} {σ' : Sys n} (hx : Exec t q σ r σ') :
    q.Answers (oneRegion dish) () r ∧ σ'.Dishes dish := by
  have same (r : Except DbError q.Resp) {σ' : Sys n} (hd : σ'.data = σ.data)
      (hw : σ'.writes = σ.writes) : (σ.record t q r σ').Dishes dish := by
    refine h.record r (hd ▸ h.data) (h.writes t) ?_
    rw [hw, Function.update_eq_self]
  cases hx with
  | kill hk =>
    cases q with
    | command c => exact ⟨trivial, h.record _ h.data Data.placed_empty rfl⟩
    | _ => cases hk
  | perform hb =>
    cases q with
    | query q =>
      refine ⟨?_, same _ rfl rfl⟩
      rcases hq with hq | hq
      · exact Query.eval_answers hq h.view hc.charted
      · cases hq
        trivial
    | command c =>
      have hwithin : c.Within (oneRegion dish) () := hq.resolve_right fun he => by cases he
      simp only [Sys.perform, Sys.answer]
      cases c.violation (σ.ctx t) (σ.view t) with
      | some e => exact ⟨trivial, h.record _ h.data Data.placed_empty rfl⟩
      | none =>
        have hin : (σ.rows t c).Inside (oneRegion dish) () :=
          Command.rows_inside hwithin h.view fun id _ _ => ⟨rfl, rfl, rfl, rfl⟩
        exact ⟨hin, h.record _ h.data ((h.writes t).overlay hin.placed) rfl⟩
    | commit => exact ⟨trivial, h.record _ h.view Data.placed_empty rfl⟩
    | rollback => exact ⟨trivial, h.record _ h.data Data.placed_empty rfl⟩
    | appNow => exact ⟨trivial, same _ rfl rfl⟩
    | publish channel event => exact ⟨trivial, same _ rfl rfl⟩

end Sys.Dishes

/-- In every state reached while no menu item changes its restaurant, the menu item of an
order item is one of its restaurant. -/
theorem Deployment.Reaches.dishes (hr : D.Reaches req p) (h₀ : D.data.Dishes dish)
    (hc : ∀ e ∈ p.state.history, e.catalog.Dishes dish) : p.state.data.Dishes dish := by
  suffices h : p.state.Dishes dish ∧ ∀ t, ServesOwn dish (p.threads t) from
    fun i hi => (h.1.data.item i hi).2.2
  induction hr with
  | refl => exact ⟨⟨h₀.placed, fun _ => Data.placed_empty⟩, fun t => (req t).servesOwn⟩
  | @tail p₁ p₂ _ hs ih =>
    cases hs with
    | env he =>
      have hi := ih (by cases he <;> exact hc)
      exact ⟨by cases he <;> exact ⟨hi.1.data, hi.1.writes⟩, hi.2⟩
    | @exec t q k r σ hp hx =>
      have hhist : σ.history = p₁.state.history ++ [p₁.state.event t q r σ.data] := by cases hx <;> rfl
      change ∀ e ∈ σ.history, _ at hc
      rw [hhist] at hc
      obtain ⟨hdishes, hthreads⟩ := ih fun e he => hc e (List.mem_append_left _ he)
      have ht := hthreads t
      rw [hp] at ht
      obtain ⟨hans, hσ⟩ := hdishes.exec (hc _ (List.mem_append_right _ List.mem_cons_self)) ht.1 hx
      refine ⟨hσ, fun u => ?_⟩
      by_cases hu : u = t
      · subst hu
        simp only [Function.update_self]
        exact ht.2 r hans
      · simp only [Function.update_of_ne hu]
        exact hthreads u

end QOrder
