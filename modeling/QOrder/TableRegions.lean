import QOrder.RegionHandlers
import QOrder.Serving

/-! The tables as regions of the data, and the operations aimed at one of them. -/

namespace QOrder

open KeyedTable Concurrency

variable {n : Nat} {owner : Uuid → Uuid} {req : Fin n → Request} {D : Deployment owner}
  {p : Clients n} {c : Catalog} {d d' : Data} {t : Uuid} {m : Atlas Uuid}

/-- Every call is of a session at its table. -/
def Data.Seated (d : Data) : Prop :=
  ∀ c ∈ d.calls, ∃ s, lookup c.tableSessionId d.sessions = some s ∧ s.tableId = c.tableId

/-- The operation is aimed at the table: its token leads there, or its id is one of a row there. -/
def Request.Aims (c : Catalog) (d : Data) (t : Uuid) : Request → Prop
  | getSessionSnapshot q | createOrder q _ | cancelItemCustomer q _ _ | callStaff q | wsCustomer q =>
    ∀ table, c.activeTable q = some table → table.id = t
  | openTable _ tableId => tableId = t
  | setItemStatus _ k _ | cancelItemStaff _ k _ =>
    ∃ i o s, lookup k d.items = some i ∧ lookup i.orderId d.orders = some o ∧
      lookup o.tableSessionId d.sessions = some s ∧ s.tableId = t
  | ackStaffCall _ k => ∃ x, lookup k d.calls = some x ∧ x.tableId = t
  | checkoutSession _ k | restoreSession _ k => ∃ s, lookup k d.sessions = some s ∧ s.tableId = t
  | runSweep | abandonSession _ => False

/-- The sessions of a table, their orders and items, and its calls. -/
def Data.atTable (d : Data) (t : Uuid) : Data :=
  let ofSession (k : Uuid) : Bool := (lookup k d.sessions).any fun s => s.tableId == t
  { sessions := d.sessions.filter fun s => s.tableId == t
    orders := d.orders.filter fun o => ofSession o.tableSessionId
    items := d.items.filter fun i => (lookup i.orderId d.orders).any fun o => ofSession o.tableSessionId
    calls := d.calls.filter fun c => c.tableId == t }

section Seated

/-- The call a guest makes is of the session at the table. -/
theorem Event.Made.seated {e : Event n} {h : Holding} (hc : e.Made owner h) (hs : e.before.Seated) :
    e.after.Seated := by
  intro x hx
  have kept {y : StaffCall} (hy : y ∈ e.before.calls) (hk : x.tableSessionId = y.tableSessionId)
      (ht : x.tableId = y.tableId) :
      ∃ s, lookup x.tableSessionId e.after.sessions = some s ∧ s.tableId = x.tableId := by
    obtain ⟨s, hl, hst⟩ := hs y hy
    obtain ⟨s', hl', ht', -⟩ := hc.grows.session hl
    exact ⟨s', hk ▸ hl', by rw [ht', hst, ht]⟩
  have hm := hx
  rw [hc.after] at hm
  cases hl : lookup x.id e.before.calls with
  | some y =>
    obtain ⟨x', hx', hst⟩ := Holding.call_step hc.ok hc.valid hc.complete hl
    rw [← hc.after, hc.after_ok.mem_calls.mp hx] at hx'
    cases hx'
    have hy := mem_of_lookup hl
    cases hst with
    | kept => exact kept hy rfl rfl
    | acked =>
      obtain ⟨-, at_, by_, rfl⟩ := hc.valid
      exact kept hy rfl rfl
    | dismissed => exact kept hy rfl rfl
  | none =>
    obtain ⟨s, rfl⟩ := Holding.call_new hc.ok hc.valid hm hl hc.complete
    obtain ⟨s', hs', ht', -⟩ := hc.grows.session hc.valid.session
    refine ⟨s', ?_, ht'.trans hc.valid.tableId.symm⟩
    rw [hc.valid.tableSessionId]
    exact hs'

theorem Deployment.Reaches.seated (hr : D.Reaches req p) (h₀ : D.data.Seated) : p.state.data.Seated :=
  (hr.preserved h₀ fun _ _ _ _ _ hc hs => hc.made.seated hs).2

end Seated

section Tables

/-- The tables as regions. A row of the data lies at its table, any other id is of the table
that `new` gives it. -/
def tableAtlas (c : Catalog) (d : Data) (new : Uuid → Uuid) : Atlas Uuid :=
  let session (k : Uuid) : Uuid := ((lookup k d.sessions).map (·.tableId)).getD (new k)
  let order (k : Uuid) : Uuid := ((lookup k d.orders).map fun o => session o.tableSessionId).getD (new k)
  { table := id
    session := session
    order := order
    item k := ((lookup k d.items).map fun i => order i.orderId).getD (new k)
    call k := ((lookup k d.calls).map (·.tableId)).getD (new k)
    restaurant _ := none
    token q t := ∀ table, c.activeTable q = some table → table.id = t
    dish _ _ := True }

variable {new : Uuid → Uuid}

theorem near_table (r t : Uuid) : (tableAtlas c d new).Near r t := by
  intro x hx
  cases hx

theorem charted_table : c.Charted (tableAtlas c d new) t where
  token hq ht := ⟨hq _ ht, near_table _ _⟩
  table _ _ := near_table _ _
  menuItem _ _ := trivial

theorem Data.Ok.placed_table (hd : d.Ok owner) (hs : d.Seated) : d.Placed (tableAtlas c d new) where
  session s h := ⟨by simp [tableAtlas, hd.mem_sessions.mp h], near_table _ _⟩
  order o h := ⟨by simp [tableAtlas, hd.mem_orders.mp h], near_table _ _⟩
  item i h := ⟨by simp [tableAtlas, hd.mem_items.mp h], near_table _ _, trivial⟩
  call x h := by
    obtain ⟨s, hl, ht⟩ := hs x h
    refine ⟨?_, ?_, near_table _ _⟩
    · simp [tableAtlas, hl, hd.mem_calls.mp h, ht]
    · simp [tableAtlas, hd.mem_calls.mp h]

theorem Data.Below.free_table (hd : d.Below k) {id : Uuid} (hk : k ≤ id) (hn : new id = t) :
    (tableAtlas c d new).Free id t := by
  have hd := hd.mono hk
  have hi : lookup id d.items = none :=
    lookup_eq_none.mpr fun i hi he => absurd (he ▸ hd.items i hi) (lt_irrefl _)
  simp [Atlas.Free, tableAtlas, hd.new_session, hd.new_order, hd.new_call, hi, hn]

theorem Request.Aims.within {r : Request} (h : r.Aims c d t) : r.Within (tableAtlas c d new) t := by
  cases r with
  | getSessionSnapshot q | createOrder q body | cancelItemCustomer q k reason | callStaff q
  | wsCustomer q => exact h
  | openTable user tableId => exact ⟨.inl h, near_table _ _⟩
  | setItemStatus user k toStatus | cancelItemStaff user k reason =>
    obtain ⟨i, o, s, hi, ho, hs, rfl⟩ := h
    exact .inl (by simp [tableAtlas, hi, ho, hs])
  | ackStaffCall user k =>
    obtain ⟨x, hx, rfl⟩ := h
    exact .inl (by simp [tableAtlas, hx])
  | checkoutSession user k | restoreSession user k =>
    obtain ⟨s, hs, rfl⟩ := h
    exact .inl (by simp [tableAtlas, hs])
  | runSweep => exact h
  | abandonSession k => exact h

end Tables

section AtTable

/-- The references between the rows are resolved. -/
structure Data.Resolved (d : Data) : Prop where
  order : ∀ o ∈ d.orders, (lookup o.tableSessionId d.sessions).isSome
  item : ∀ i ∈ d.items, (lookup i.orderId d.orders).isSome

theorem Data.Ok.resolved_part (hd : d.Ok owner) (hp : d.Placed m) : (d.part m t).Resolved where
  order o ho := by
    obtain ⟨ho, hz⟩ := Data.mem_part_orders.mp ho
    have hk : m.session o.tableSessionId = t := (hp.order o ho).1.trans hz
    rw [Data.lookup_sessions_part hk]
    exact hd.orderSession o ho
  item i hi := by
    obtain ⟨hi, hz⟩ := Data.mem_part_items.mp hi
    have hk : m.order i.orderId = t := (hp.item i hi).1.trans hz
    rw [Data.lookup_orders_part hk]
    exact hd.itemOrder i hi

/-- The rows at a table are those of its region. -/
theorem Data.Placed.atTable (hp : d.Placed m) (hm : m.table = id) (hr : (d.part m t).Resolved) :
    d.atTable t = d.part m t := by
  have hsession {s : TableSession} (hs : s ∈ d.sessions) : s.tableId = m.session s.id := by
    rw [← (hp.session s hs).1, hm]
    rfl
  have hof {k : Uuid} (hl : m.session k = t → (lookup k d.sessions).isSome) :
      ((lookup k d.sessions).any fun s => s.tableId == t) = decide (m.session k = t) := by
    cases hs : lookup k d.sessions with
    | some s =>
      have hid : s.id = k := key_of_lookup hs
      rw [Option.any_some, hsession (mem_of_lookup hs), hid]
      rfl
    | none =>
      rw [hs] at hl
      exact (decide_eq_false fun hk => absurd (hl hk) (by simp)).symm
  have horder {o : Order} (ho : o ∈ d.orders) :
      ((lookup o.tableSessionId d.sessions).any fun s => s.tableId == t) = decide (m.order o.id = t) := by
    have hk := (hp.order o ho).1
    rw [← hk]
    refine hof fun hz => ?_
    have hl := hr.order o (Data.mem_part_orders.mpr ⟨ho, hk.symm.trans hz⟩)
    rwa [Data.lookup_sessions_part hz] at hl
  have hitem {i : OrderItem} (hi : i ∈ d.items) :
      ((lookup i.orderId d.orders).any fun o => (lookup o.tableSessionId d.sessions).any fun s =>
        s.tableId == t) = decide (m.item i.id = t) := by
    have hk := (hp.item i hi).1
    rw [← hk]
    cases ho : lookup i.orderId d.orders with
    | some o =>
      have hid : o.id = i.orderId := key_of_lookup ho
      rw [Option.any_some, horder (mem_of_lookup ho), hid]
    | none =>
      refine (decide_eq_false fun hz => ?_).symm
      have hl := hr.item i (Data.mem_part_items.mpr ⟨hi, hk.symm.trans hz⟩)
      rw [Data.lookup_orders_part hz, ho] at hl
      cases hl
  have hcall {x : StaffCall} (hx : x ∈ d.calls) : (x.tableId == t) = decide (m.call x.id = t) := by
    rw [← (hp.call x hx).2.1, hm]
    rfl
  have hs := List.filter_congr (l := d.sessions) fun s hs => congrArg (fun k => decide (k = t)) (hsession hs)
  have ho := List.filter_congr (l := d.orders) fun o => horder
  have hi := List.filter_congr (l := d.items) fun i => hitem
  have hc := List.filter_congr (l := d.calls) fun x => hcall
  exact congr (congr (congr (congrArg Data.mk hs) ho) hi) hc

end AtTable

end QOrder
