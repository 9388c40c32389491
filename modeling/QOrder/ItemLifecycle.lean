import QOrder.SessionLifecycle

/-! The life of an order item: the committed changes of its status, what a customer may
cause, and which audit columns go with which status. -/

namespace QOrder

open KeyedTable Concurrency

variable {n : Nat} {owner : Uuid → Uuid} {req : Fin n → Request}

/-- The changes of status a transaction begun at `now` may commit. -/
inductive OrderItem.Becomes (now : Timestamp) (i : OrderItem) : OrderItemStatus → Prop
  | cook (h : i.status = .pending) : Becomes now i .cooking
  | ready (h : i.status = .pending ∨ i.status = .cooking) : Becomes now i .ready
  | serve (h : i.status = .pending ∨ i.status = .cooking ∨ i.status = .ready) : Becomes now i .served
  | cancel (h : i.status = .pending ∨ i.status = .cooking ∨ i.status = .ready) :
      Becomes now i .cancelled
  | undo {servedAt : Timestamp} (h : i.status = .served) (hs : i.servedAt = some servedAt)
      (hle : now - servedAt ≤ seconds 120) : Becomes now i .pending

/-- The requests of the customer endpoints. -/
def Request.isCustomer : Request → Bool
  | .getSessionSnapshot _ | .createOrder _ _ | .cancelItemCustomer _ _ _ | .callStaff _
  | .wsCustomer _ => true
  | _ => false

/-- A customer cancelled `i` on the session that its token has led it to. -/
def CustomerCancels (r : Request) (l : List (Event n)) (d : Data) (i i' : OrderItem) : Prop :=
  ∃ (qrToken : String) (reason : Option String) (s : TableSession),
    r = .cancelItemCustomer qrToken i.id reason ∧ i.status = .pending ∧ i'.status = .cancelled ∧
      d.inSession s.id i = true ∧ Resolved qrToken s.tableId l ∧ SeenOpen s.tableId s.id l

section Step

variable {now : Timestamp} {d : Data} {i i' : OrderItem} {h : Holding}

theorem isUnserved_iff :
    i.isUnserved = true ↔ i.status = .pending ∨ i.status = .cooking ∨ i.status = .ready := by
  cases hs : i.status <;> simp [OrderItem.isUnserved, OrderItemStatus.unserved, hs]

theorem OrderItem.Move.becomes (hm : i.Move now i') : i.Becomes now i'.status := by
  cases hm with
  | cook h => exact .cook h
  | ready h => exact .ready h
  | serve actorUserId h => exact .serve (isUnserved_iff.mp h)
  | undo h hu =>
    obtain ⟨servedAt, hs, hle⟩ := (Option.any_eq_true _ _).mp hu
    exact .undo h hs (of_decide_eq_true hle)
  | cancel cancelledBy cancelReason h => exact .cancel (isUnserved_iff.mp h)

theorem Holding.ItemStep.becomes (hst : h.ItemStep now d i i') :
    i' = i ∨ i.Becomes now i'.status := by
  cases hst with
  | kept => exact .inl rfl
  | moved s hm => exact .inr hm.becomes
  | cancelled s items kind hs hu => exact .inr (.cancel (isUnserved_iff.mp hu))

theorem OrderItem.Becomes.not_cancelled {status : OrderItemStatus} (hb : i.Becomes now status) :
    i.status ≠ .cancelled := by
  cases hb with
  | ready h => rcases h with h | h <;> simp [h]
  | serve h | cancel h => rcases h with h | h | h <;> simp [h]
  | cook h => simp [h]
  | undo h => simp [h]

end Step

section Events

variable {hb : List (Event n)} {e : Event n} {h : Holding}

theorem Committed.customer (hc : Committed owner req hb e h)
    (hq : (req e.client).isCustomer = true) {k : Uuid} {i i' : OrderItem}
    (hi : lookup k e.before.items = some i) (hi' : lookup k e.after.items = some i') :
    i' = i ∨ CustomerCancels (req e.client) (own e.client hb) e.before i i' := by
  obtain ⟨i₁, hi₁, hst⟩ := hc.item hi
  obtain rfl : i' = i₁ := Option.some.inj (hi'.symm.trans hi₁)
  have hj := hc.justified
  cases hst with
  | kept => exact .inl rfl
  | moved s hm hs =>
    right
    cases hr : req e.client with
    | cancelItemCustomer qrToken itemId reason =>
      rw [hr] at hj
      obtain ⟨rfl, hp, hcn, hseen, hres⟩ := hj
      exact ⟨qrToken, reason, s, rfl, hp, hcn, hs, hres, hseen⟩
    | _ => simp [hr, Request.isCustomer, Justified, MoveOf] at hq hj
  | cancelled s items kind hs hu =>
    cases hr : req e.client <;> simp [hr, Request.isCustomer, Justified, LeaveOf] at hq hj

end Events

namespace Deployment

variable {D : Deployment owner} {p p' : Clients n}

theorem Reaches.item_becomes (hr : D.Reaches req p) {e : Event n} (he : e ∈ p.state.history)
    {k : Uuid} {i i' : OrderItem} (hi : lookup k e.before.items = some i)
    (hi' : lookup k e.after.items = some i') : i' = i ∨ i.Becomes e.now i'.status := by
  obtain ⟨hb, -, hen⟩ := hr.entry he
  rcases hen.unchanged_or_committed with ha | ⟨h, hc⟩
  · exact .inl (Option.some.inj (hi'.symm.trans (ha ▸ hi)))
  · obtain ⟨i₁, hi₁, hst⟩ := hc.item hi
    obtain rfl : i' = i₁ := Option.some.inj (hi'.symm.trans hi₁)
    exact hst.becomes

theorem Reaches.cancelled_step (hr : D.Reaches req p) (hs : (machine owner n).Step p p') {k : Uuid}
    {i : OrderItem} (hi : lookup k p.state.data.items = some i) (hc : i.status = .cancelled) :
    lookup k p'.state.data.items = some i := by
  rcases hr.step hs with hd | ⟨e, h, hcm, hb, ha⟩
  · rw [hd, hi]
  · obtain ⟨i', hi', hst⟩ := hcm.item (hb ▸ hi)
    rcases hst.becomes with rfl | hbc
    · rw [← ha, hi']
    · exact absurd hc hbc.not_cancelled

/-- A cancelled item never changes again. -/
theorem Reaches.cancelled_run (hr : D.Reaches req p) (hp : (machine owner n).Reachable p p')
    {k : Uuid} {i : OrderItem} (hi : lookup k p.state.data.items = some i)
    (hc : i.status = .cancelled) : lookup k p'.state.data.items = some i := by
  induction hp with
  | refl => exact hi
  | tail hp hs ih => exact Reaches.cancelled_step (hr.trans hp) hs ih hc

theorem Reaches.customer_changes (hr : D.Reaches req p) {hb post : List (Event n)} {e : Event n}
    (he : p.state.history = hb ++ e :: post) (hq : (req e.client).isCustomer = true) {k : Uuid}
    {i i' : OrderItem} (hi : lookup k e.before.items = some i)
    (hi' : lookup k e.after.items = some i') :
    i' = i ∨ CustomerCancels (req e.client) (own e.client hb) e.before i i' := by
  rcases (hr.inv.logged hb e post he).unchanged_or_committed with ha | ⟨h, hc⟩
  · exact .inl (Option.some.inj (hi'.symm.trans (ha ▸ hi)))
  · exact hc.customer hq hi hi'

end Deployment

section Lifecycle

variable {D : Deployment owner} {p : Clients n}

/-- The lifecycle of items under any interleaving. -/
theorem item_lifecycle (hr : D.Reaches req p) :
    Follows Event.before Event.after D.data p.state.history p.state.data ∧
    (∀ e ∈ p.state.history, ∀ k i i', lookup k e.before.items = some i →
      lookup k e.after.items = some i' → i' = i ∨ i.Becomes e.now i'.status) ∧
    (∀ p', (machine owner n).Reachable p p' → ∀ k i, lookup k p.state.data.items = some i →
      i.status = .cancelled → lookup k p'.state.data.items = some i) ∧
    (∀ hb e post, p.state.history = hb ++ e :: post → (req e.client).isCustomer = true →
      ∀ k i i', lookup k e.before.items = some i → lookup k e.after.items = some i' →
        i' = i ∨ CustomerCancels (req e.client) (own e.client hb) e.before i i') ∧
    (∀ i ∈ p.state.data.items, i.Columns) :=
  ⟨hr.inv.follows, fun _ he _ _ _ hi hi' => hr.item_becomes he hi hi',
    fun _ hp _ _ hi hc => hr.cancelled_run hp hi hc,
    fun _ _ _ he hq _ _ _ hi hi' => hr.customer_changes he hq hi hi', hr.inv.ok.itemColumns⟩

def cafeItem : Fin 3 → Request
  | 0 => cafeOrder
  | 1 => .setItemStatus cafeStaff 12 .served
  | 2 => .setItemStatus cafeStaff 12 .pending

/-- The first dish is served and, two minutes later at most, taken back. -/
theorem item_lifecycle_cafe : ∃ p, cafe.Reaches cafeItem p ∧
    (∀ i ∈ p.state.data.items, i.Columns) ∧ ∃ i ∈ p.state.data.items, i.status = .pending := by
  obtain ⟨p, hr, hc⟩ := cafe.reaches_play cafeItem
    (fun p => p.state.data.items.any fun i => i.status == .pending)
    (steps 0 15 ++ steps 1 4 ++ .tick 120000000 0 :: steps 2 4) (by decide)
  obtain ⟨i, hi, hs⟩ := List.any_eq_true.mp hc
  exact ⟨p, hr, (item_lifecycle hr).2.2.2.2, i, hi, by simpa using hs⟩

end Lifecycle

end QOrder
