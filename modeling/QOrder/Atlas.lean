import QOrder.KeyedParts
import QOrder.Statements

/-! A division of the rows into regions that shows in their ids. A session lies where its
table does, an order where its session does; a statement about rows of one region reads
and writes that region only. -/

namespace QOrder

open KeyedTable

/-- The region of each id. -/
structure Atlas (ζ : Type) where
  table : Uuid → ζ
  session : Uuid → ζ
  order : Uuid → ζ
  item : Uuid → ζ
  call : Uuid → ζ
  /-- The region of all rows of a restaurant, where there is one. -/
  restaurant : Uuid → Option ζ
  /-- The region of the table a token leads to, if it leads to one. -/
  token : String → ζ → Prop
  /-- The menu item is one of the restaurant. -/
  dish : Uuid → Uuid → Prop

variable {ζ : Type} {m : Atlas ζ} {z : ζ} {ctx : Ctx} {c : Catalog} {d w : Data}

/-- The rows of the restaurant are in no other region. -/
def Atlas.Near (m : Atlas ζ) (restaurantId : Uuid) (z : ζ) : Prop :=
  ∀ x ∈ m.restaurant restaurantId, x = z

/-- An id of the region, or one that is read together with a restaurant of the region. -/
def Atlas.Held (m : Atlas ζ) (label : ζ) (restaurantId : Uuid) (z : ζ) : Prop :=
  label = z ∨ m.restaurant restaurantId = some z

/-- A new id may be given to a row of the region. -/
def Atlas.Free (m : Atlas ζ) (id : Uuid) (z : ζ) : Prop :=
  m.session id = z ∧ m.order id = z ∧ m.item id = z ∧ m.call id = z

structure Data.Placed (m : Atlas ζ) (d : Data) : Prop where
  session : ∀ s ∈ d.sessions, m.table s.tableId = m.session s.id ∧ m.Near s.restaurantId (m.session s.id)
  order : ∀ o ∈ d.orders, m.session o.tableSessionId = m.order o.id ∧ m.Near o.restaurantId (m.order o.id)
  item : ∀ i ∈ d.items, m.order i.orderId = m.item i.id ∧ m.Near i.restaurantId (m.item i.id) ∧
    m.dish i.menuItemId i.restaurantId
  call : ∀ c ∈ d.calls, m.session c.tableSessionId = m.call c.id ∧ m.table c.tableId = m.call c.id ∧
    m.Near c.restaurantId (m.call c.id)

/-- Rows of one region. -/
structure Data.Inside (m : Atlas ζ) (z : ζ) (w : Data) : Prop where
  placed : w.Placed m
  session : ∀ s ∈ w.sessions, m.session s.id = z
  order : ∀ o ∈ w.orders, m.order o.id = z
  item : ∀ i ∈ w.items, m.item i.id = z
  call : ∀ c ∈ w.calls, m.call c.id = z

/-- What a region finds in the catalog. -/
structure Catalog.Charted (m : Atlas ζ) (z : ζ) (c : Catalog) : Prop where
  token : ∀ {q t}, m.token q z → c.activeTable q = some t →
    m.table t.id = z ∧ m.Near t.restaurantId z
  table : ∀ t ∈ c.tables, m.Near t.restaurantId (m.table t.id)
  menuItem : ∀ x ∈ c.menuItems, m.dish x.id x.restaurantId

theorem Atlas.Held.near {label : ζ} {rid : Uuid} (h : m.Held label rid z) (hn : m.Near rid label) :
    label = z := by
  rcases h with h | h
  · exact h
  · exact (hn z h).symm

namespace Data

theorem placed_empty : Placed m {} where
  session _ h := by cases h
  order _ h := by cases h
  item _ h := by cases h
  call _ h := by cases h

theorem inside_empty : Inside m z {} where
  placed := placed_empty
  session _ h := by cases h
  order _ h := by cases h
  item _ h := by cases h
  call _ h := by cases h

theorem Placed.overlay (hd : d.Placed m) (hw : w.Placed m) : (d.overlay w).Placed m where
  session s hs := (mem_of_mem_overlay hs).elim (hw.session s) (hd.session s)
  order o ho := (mem_of_mem_overlay ho).elim (hw.order o) (hd.order o)
  item i hi := (mem_of_mem_overlay hi).elim (hw.item i) (hd.item i)
  call c hc := (mem_of_mem_overlay hc).elim (hw.call c) (hd.call c)

theorem Inside.overlay (hd : d.Inside m z) (hw : w.Inside m z) : (d.overlay w).Inside m z where
  placed := hd.placed.overlay hw.placed
  session s hs := (mem_of_mem_overlay hs).elim (hw.session s) (hd.session s)
  order o ho := (mem_of_mem_overlay ho).elim (hw.order o) (hd.order o)
  item i hi := (mem_of_mem_overlay hi).elim (hw.item i) (hd.item i)
  call c hc := (mem_of_mem_overlay hc).elim (hw.call c) (hd.call c)

theorem Placed.item_of_inSession (hd : d.Placed m) {i : OrderItem} (hi : i ∈ d.items) {k : Uuid}
    (h : d.inSession k i = true) : m.item i.id = m.session k := by
  obtain ⟨o, ho, h⟩ := List.any_eq_true.mp h
  simp only [Bool.and_eq_true, beq_iff_eq] at h
  rw [← (hd.item i hi).1, ← h.1, ← (hd.order o ho).1, h.2]

variable [DecidableEq ζ]

/-- The rows of a region. -/
def part (m : Atlas ζ) (z : ζ) (d : Data) : Data where
  sessions := KeyedTable.part (fun k => m.session k = z) d.sessions
  orders := KeyedTable.part (fun k => m.order k = z) d.orders
  items := KeyedTable.part (fun k => m.item k = z) d.items
  calls := KeyedTable.part (fun k => m.call k = z) d.calls

@[simp] theorem mem_part_sessions {s : TableSession} :
    s ∈ (d.part m z).sessions ↔ s ∈ d.sessions ∧ m.session s.id = z := by simp [part]

@[simp] theorem mem_part_orders {o : Order} :
    o ∈ (d.part m z).orders ↔ o ∈ d.orders ∧ m.order o.id = z := by simp [part]

@[simp] theorem mem_part_items {i : OrderItem} :
    i ∈ (d.part m z).items ↔ i ∈ d.items ∧ m.item i.id = z := by simp [part]

@[simp] theorem mem_part_calls {x : StaffCall} :
    x ∈ (d.part m z).calls ↔ x ∈ d.calls ∧ m.call x.id = z := by simp [part]

theorem part_overlay : (d.overlay w).part m z = (d.part m z).overlay (w.part m z) := by
  simp only [part, Data.overlay, KeyedTable.part_overlay]

theorem Inside.part_other (hw : w.Inside m z) {x : ζ} (hx : x ≠ z) : w.part m x = {} := by
  have ne {y : ζ} (hy : y = z) : decide (y = x) = false := decide_eq_false fun he => hx (he.symm.trans hy)
  have hs := KeyedTable.part_eq_nil (p := fun k => m.session k = x) fun s hs => ne (hw.session s hs)
  have ho := KeyedTable.part_eq_nil (p := fun k => m.order k = x) fun o ho => ne (hw.order o ho)
  have hi := KeyedTable.part_eq_nil (p := fun k => m.item k = x) fun i hi => ne (hw.item i hi)
  have hc := KeyedTable.part_eq_nil (p := fun k => m.call k = x) fun c hc => ne (hw.call c hc)
  rw [part, hs, ho, hi, hc]

theorem inSession_part (hd : d.Placed m) {k : Uuid} (hk : m.session k = z) :
    (d.part m z).inSession k = d.inSession k := by
  funext i
  have hp : ∀ o ∈ d.orders, (o.id == i.orderId && o.tableSessionId == k) = true →
      decide (m.order (key o) = z) = true := by
    intro o ho h
    simp only [Bool.and_eq_true, beq_iff_eq] at h
    rw [decide_eq_true_iff, key_order, ← (hd.order o ho).1, h.2, hk]
  exact any_part (p := fun k => m.order k = z) hp

theorem itemsOf_part (hd : d.Placed m) {k : Uuid} (hk : m.session k = z) :
    (d.part m z).itemsOf k = d.itemsOf k := by
  have hp : ∀ i ∈ d.items, d.inSession k i = true → decide (m.item (key i) = z) = true := by
    intro i hi h
    rw [decide_eq_true_iff, key_item, hd.item_of_inSession hi h, hk]
  rw [itemsOf, inSession_part hd hk]
  exact filter_part (p := fun k => m.item k = z) hp

end Data

end QOrder
