import QOrder.Schema

/-! Consistent data: unique ids, resolved references, columns that agree with the
status, and at most one open session per table. A write set that fits the data it
is laid over keeps them. -/

namespace QOrder

open KeyedTable

def TableSession.Columns (s : TableSession) : Prop :=
  match s.status with
  | .opened => s.closedAt = none ∧ s.abandonedAt = none ∧ s.totalAmount = none
  | .abandoned => s.abandonedAt.isSome ∧ s.closedAt = none ∧ s.totalAmount = none
  | .closed => s.closedAt.isSome ∧ s.totalAmount.isSome

structure OrderItem.Columns (i : OrderItem) : Prop where
  servedAt : i.servedAt.isSome ↔ i.status = .served
  servedBy : i.status ≠ .served → i.servedBy = none
  cancelledBy : i.cancelledBy.isSome ↔ i.status = .cancelled
  cancelledAt : i.cancelledAt.isSome ↔ i.status = .cancelled

namespace Data

structure Ok (owner : Uuid → Uuid) (d : Data) : Prop where
  sessionIds : UniqueKeys d.sessions
  orderIds : UniqueKeys d.orders
  itemIds : UniqueKeys d.items
  callIds : UniqueKeys d.calls
  restaurant : ∀ s ∈ d.sessions, s.restaurantId = owner s.tableId
  sessionColumns : ∀ s ∈ d.sessions, s.Columns
  itemColumns : ∀ i ∈ d.items, i.Columns
  orderSession : ∀ o ∈ d.orders, (lookup o.tableSessionId d.sessions).isSome
  itemOrder : ∀ i ∈ d.items, (lookup i.orderId d.orders).isSome
  callSession : ∀ c ∈ d.calls, ∃ s, lookup c.tableSessionId d.sessions = some s ∧
    s.restaurantId = c.restaurantId
  oneOpen : ∀ s ∈ d.sessions, ∀ r ∈ d.sessions, s.status = .opened → r.status = .opened →
    r.tableId = s.tableId → r = s

theorem ok_empty (owner : Uuid → Uuid) : Ok owner {} where
  sessionIds := List.nodup_nil
  orderIds := List.nodup_nil
  itemIds := List.nodup_nil
  callIds := List.nodup_nil
  restaurant := by simp
  sessionColumns := by simp
  itemColumns := by simp
  orderSession := by simp
  itemOrder := by simp
  callSession := by simp
  oneOpen := by simp

/-- What a write set has to satisfy for consistent data to stay consistent under it. -/
structure Fits (owner : Uuid → Uuid) (d w : Data) : Prop where
  sessionIds : UniqueKeys w.sessions
  orderIds : UniqueKeys w.orders
  itemIds : UniqueKeys w.items
  callIds : UniqueKeys w.calls
  restaurant : ∀ s ∈ w.sessions, s.restaurantId = owner s.tableId
  sessionColumns : ∀ s ∈ w.sessions, s.Columns
  itemColumns : ∀ i ∈ w.items, i.Columns
  sessionTable : ∀ s ∈ w.sessions, ∀ r, lookup s.id d.sessions = some r → s.tableId = r.tableId
  orderNew : ∀ o ∈ w.orders, lookup o.id d.orders = none
  orderSession : ∀ o ∈ w.orders, (lookup o.tableSessionId (d.overlay w).sessions).isSome
  itemKept : ∀ i ∈ w.items, ∀ r, lookup i.id d.items = some r → i.orderId = r.orderId
  itemOrder : ∀ i ∈ w.items, (lookup i.orderId (d.overlay w).orders).isSome
  callKept : ∀ c ∈ w.calls, ∀ r, lookup c.id d.calls = some r → c.tableSessionId = r.tableSessionId
  callSession : ∀ c ∈ w.calls, ∃ s, lookup c.tableSessionId (d.overlay w).sessions = some s ∧
    s.restaurantId = c.restaurantId
  oneOpen : ∀ s ∈ w.sessions, ∀ r ∈ (d.overlay w).sessions, s.status = .opened →
    r.status = .opened → r.tableId = s.tableId → r = s

variable {owner : Uuid → Uuid} {d w : Data}

theorem Ok.mem_sessions (hd : d.Ok owner) {s : TableSession} :
    s ∈ d.sessions ↔ lookup s.id d.sessions = some s := mem_iff_lookup hd.sessionIds

theorem Ok.mem_orders (hd : d.Ok owner) {o : Order} :
    o ∈ d.orders ↔ lookup o.id d.orders = some o := mem_iff_lookup hd.orderIds

theorem Ok.mem_items (hd : d.Ok owner) {i : OrderItem} :
    i ∈ d.items ↔ lookup i.id d.items = some i := mem_iff_lookup hd.itemIds

theorem Ok.mem_calls (hd : d.Ok owner) {c : StaffCall} :
    c ∈ d.calls ↔ lookup c.id d.calls = some c := mem_iff_lookup hd.callIds

theorem Fits.session_kept (hd : d.Ok owner) (hw : d.Fits owner w) {k : Uuid} {s : TableSession}
    (hs : lookup k d.sessions = some s) :
    ∃ s', lookup k (d.overlay w).sessions = some s' ∧ s'.tableId = s.tableId ∧
      s'.restaurantId = s.restaurantId := by
  cases hl : lookup k w.sessions with
  | none => exact ⟨s, by simp [hl, hs], rfl, rfl⟩
  | some s' =>
    have hm := mem_of_lookup hl
    have hk : s'.id = k := key_of_lookup hl
    have ht := hw.sessionTable s' hm s (hk ▸ hs)
    refine ⟨s', by simp [hl], ht, ?_⟩
    rw [hw.restaurant s' hm, hd.restaurant s (mem_of_lookup hs), ht]

theorem Fits.order_kept (hw : d.Fits owner w) {k : Uuid} {o : Order}
    (ho : lookup k d.orders = some o) : lookup k (d.overlay w).orders = some o := by
  cases hl : lookup k w.orders with
  | none => simp [hl, ho]
  | some o' =>
    have hk : o'.id = k := key_of_lookup hl
    have hn := hw.orderNew o' (mem_of_lookup hl)
    rw [hk, ho] at hn
    cases hn

theorem Ok.overlay (hd : d.Ok owner) (hw : d.Fits owner w) : (d.overlay w).Ok owner where
  sessionIds := uniqueKeys_overlay hd.sessionIds hw.sessionIds
  orderIds := uniqueKeys_overlay hd.orderIds hw.orderIds
  itemIds := uniqueKeys_overlay hd.itemIds hw.itemIds
  callIds := uniqueKeys_overlay hd.callIds hw.callIds
  restaurant s hs := by
    rcases mem_of_mem_overlay hs with h | h
    · exact hw.restaurant s h
    · exact hd.restaurant s h
  sessionColumns s hs := by
    rcases mem_of_mem_overlay hs with h | h
    · exact hw.sessionColumns s h
    · exact hd.sessionColumns s h
  itemColumns i hi := by
    rcases mem_of_mem_overlay hi with h | h
    · exact hw.itemColumns i h
    · exact hd.itemColumns i h
  orderSession o ho := by
    rcases mem_of_mem_overlay ho with h | h
    · exact hw.orderSession o h
    · obtain ⟨s, hs⟩ := Option.isSome_iff_exists.mp (hd.orderSession o h)
      obtain ⟨s', hs', -⟩ := hw.session_kept hd hs
      exact Option.isSome_iff_exists.mpr ⟨s', hs'⟩
  itemOrder i hi := by
    rcases mem_of_mem_overlay hi with h | h
    · exact hw.itemOrder i h
    · obtain ⟨o, ho⟩ := Option.isSome_iff_exists.mp (hd.itemOrder i h)
      simp only [hw.order_kept ho, Option.isSome_some]
  callSession c hc := by
    rcases mem_of_mem_overlay hc with h | h
    · exact hw.callSession c h
    · obtain ⟨s, hs, hr⟩ := hd.callSession c h
      obtain ⟨s', hs', -, hr'⟩ := hw.session_kept hd hs
      exact ⟨s', hs', hr'.trans hr⟩
  oneOpen s hs r hr hso hro ht := by
    rcases mem_of_mem_overlay hs with h | h
    · exact hw.oneOpen s h r hr hso hro ht
    · rcases mem_of_mem_overlay hr with h' | h'
      · exact (hw.oneOpen r h' s hs hro hso ht.symm).symm
      · exact hd.oneOpen s h r h' hso hro ht

theorem inSession_iff (hd : d.Ok owner) {k : Uuid} {i : OrderItem} :
    d.inSession k i = true ↔ ∃ o, lookup i.orderId d.orders = some o ∧ o.tableSessionId = k := by
  simp only [inSession, List.any_eq_true, Bool.and_eq_true, beq_iff_eq]
  constructor
  · rintro ⟨o, ho, hi, hk⟩
    exact ⟨o, by rw [← hi]; exact hd.mem_orders.mp ho, hk⟩
  · rintro ⟨o, ho, hk⟩
    exact ⟨o, mem_of_lookup ho, key_of_lookup ho, hk⟩

theorem inSession_unique (hd : d.Ok owner) {k k' : Uuid} {i : OrderItem}
    (h : d.inSession k i = true) (h' : d.inSession k' i = true) : k = k' := by
  obtain ⟨o, ho, rfl⟩ := (inSession_iff hd).mp h
  obtain ⟨o', ho', rfl⟩ := (inSession_iff hd).mp h'
  rw [ho] at ho'
  cases ho'
  rfl

theorem inSession_congr {k : Uuid} {i j : OrderItem} (h : i.orderId = j.orderId) :
    d.inSession k i = d.inSession k j := by
  simp [inSession, h]

theorem mem_itemsOf {k : Uuid} {i : OrderItem} :
    i ∈ d.itemsOf k ↔ i ∈ d.items ∧ d.inSession k i = true := by
  simp [itemsOf]

/-- Every item of consistent data belongs to a session of the data. -/
theorem Ok.session_of_item (hd : d.Ok owner) {i : OrderItem} (hi : i ∈ d.items) :
    ∃ s ∈ d.sessions, d.inSession s.id i = true := by
  obtain ⟨o, ho⟩ := Option.isSome_iff_exists.mp (hd.itemOrder i hi)
  obtain ⟨s, hs⟩ := Option.isSome_iff_exists.mp (hd.orderSession o (mem_of_lookup ho))
  have hk : s.id = o.tableSessionId := key_of_lookup hs
  exact ⟨s, mem_of_lookup hs, (inSession_iff hd).mpr ⟨o, ho, hk.symm⟩⟩

theorem inSession_overlay (hd : d.Ok owner) (hw : d.Fits owner w) {k : Uuid} {i : OrderItem}
    (hi : (lookup i.orderId d.orders).isSome) :
    (d.overlay w).inSession k i = d.inSession k i := by
  obtain ⟨o, ho⟩ := Option.isSome_iff_exists.mp hi
  rw [Bool.eq_iff_iff, inSession_iff (hd.overlay hw), inSession_iff hd, hw.order_kept ho, ho]

/-- A write set without items of a session leaves the items of that session alone. -/
theorem itemsOf_overlay (hd : d.Ok owner) (hw : d.Fits owner w) {k : Uuid}
    (h : ∀ i ∈ w.items, (d.overlay w).inSession k i = false) :
    (d.overlay w).itemsOf k = d.itemsOf k := by
  refine filter_overlay (fun i hi _ => inSession_overlay hd hw (hd.itemOrder i hi)) ?_ h
  intro i hi hl
  obtain ⟨i', hi'⟩ := Option.ne_none_iff_exists'.mp hl
  have hk : i'.id = i.id := key_of_lookup hi'
  have ho := hw.itemKept i' (mem_of_lookup hi') i (by rw [hk]; exact hd.mem_items.mp hi)
  rw [← inSession_overlay hd hw (hd.itemOrder i hi), ← inSession_congr ho]
  exact h i' (mem_of_lookup hi')

/-- Rows persist, and the columns that place them never change. -/
structure Grows (d d' : Data) : Prop where
  session : ∀ {k s}, lookup k d.sessions = some s → ∃ s', lookup k d'.sessions = some s' ∧
    s'.tableId = s.tableId ∧ s'.restaurantId = s.restaurantId
  order : ∀ {k o}, lookup k d.orders = some o → lookup k d'.orders = some o
  item : ∀ {k i}, lookup k d.items = some i → ∃ i', lookup k d'.items = some i' ∧
    i'.orderId = i.orderId
  call : ∀ {k c}, lookup k d.calls = some c → ∃ c', lookup k d'.calls = some c' ∧
    c'.tableSessionId = c.tableSessionId

theorem Grows.refl (d : Data) : d.Grows d where
  session h := ⟨_, h, rfl, rfl⟩
  order h := h
  item h := ⟨_, h, rfl⟩
  call h := ⟨_, h, rfl⟩

theorem Grows.trans {d' d'' : Data} (h : d.Grows d') (h' : d'.Grows d'') : d.Grows d'' where
  session hs := by
    obtain ⟨s', hs', ht, hr⟩ := h.session hs
    obtain ⟨s'', hs'', ht', hr'⟩ := h'.session hs'
    exact ⟨s'', hs'', ht'.trans ht, hr'.trans hr⟩
  order ho := h'.order (h.order ho)
  item hi := by
    obtain ⟨i', hi', ho⟩ := h.item hi
    obtain ⟨i'', hi'', ho'⟩ := h'.item hi'
    exact ⟨i'', hi'', ho'.trans ho⟩
  call hc := by
    obtain ⟨c', hc', ht⟩ := h.call hc
    obtain ⟨c'', hc'', ht'⟩ := h'.call hc'
    exact ⟨c'', hc'', ht'.trans ht⟩

theorem Fits.grows (hd : d.Ok owner) (hw : d.Fits owner w) : d.Grows (d.overlay w) where
  session hs := hw.session_kept hd hs
  order ho := hw.order_kept ho
  item {k i} hi := by
    cases hl : lookup k w.items with
    | none => exact ⟨i, by simp [hl, hi], rfl⟩
    | some i' =>
      have hk : i'.id = k := key_of_lookup hl
      exact ⟨i', by simp [hl], hw.itemKept i' (mem_of_lookup hl) i (hk ▸ hi)⟩
  call {k c} hc := by
    cases hl : lookup k w.calls with
    | none => exact ⟨c, by simp [hl, hc], rfl⟩
    | some c' =>
      have hk : c'.id = k := key_of_lookup hl
      exact ⟨c', by simp [hl], hw.callKept c' (mem_of_lookup hl) c (hk ▸ hc)⟩

theorem Grows.call_restaurant {d' : Data} (h : d.Grows d') (hd : d.Ok owner) (hd' : d'.Ok owner)
    {c c' : StaffCall} (hc : c ∈ d.calls) (hc' : c' ∈ d'.calls)
    (ht : c'.tableSessionId = c.tableSessionId) : c'.restaurantId = c.restaurantId := by
  obtain ⟨s, hs, hr⟩ := hd.callSession c hc
  obtain ⟨s', hs', hr'⟩ := hd'.callSession c' hc'
  obtain ⟨s₁, hs₁, -, hr₁⟩ := h.session hs
  rw [ht, hs₁] at hs'
  cases hs'
  rw [← hr', hr₁, hr]

theorem Grows.inSession {d' : Data} (h : d.Grows d') (hd : d.Ok owner) (hd' : d'.Ok owner)
    {k : Uuid} {i : OrderItem} (hi : d.inSession k i = true) : d'.inSession k i = true := by
  obtain ⟨o, ho, hk⟩ := (inSession_iff hd).mp hi
  exact (inSession_iff hd').mpr ⟨o, h.order ho, hk⟩

end Data

end QOrder
