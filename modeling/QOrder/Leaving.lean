import QOrder.OpeningProofs

/-! What the transaction that takes a session out of use leaves behind: no unserved
item, no pending call, and for a checkout the total of the served items. -/

namespace QOrder

open KeyedTable

variable {owner : Uuid → Uuid} {d w : Data} {k : Uuid} {now : Timestamp} {reason : String}

theorem servedTotal_cons (i : OrderItem) (items : List OrderItem) :
    servedTotal (i :: items) = (if i.status = .served then i.amount else 0) + servedTotal items := by
  by_cases h : i.status = .served <;> simp [servedTotal, h]

def OrderItem.cancelIfUnserved (now : Timestamp) (reason : String) (i : OrderItem) : OrderItem :=
  if i.isUnserved then i.cancel .system now (some reason) else i

namespace OrderItem

@[simp] theorem cancelIfUnserved_id (i : OrderItem) : (i.cancelIfUnserved now reason).id = i.id := by
  unfold cancelIfUnserved
  split <;> rfl

@[simp] theorem cancelIfUnserved_orderId (i : OrderItem) :
    (i.cancelIfUnserved now reason).orderId = i.orderId := by
  unfold cancelIfUnserved
  split <;> rfl

theorem cancelIfUnserved_served (i : OrderItem) : (i.cancelIfUnserved now reason).isUnserved = false := by
  unfold cancelIfUnserved
  split
  · rfl
  · simp_all

theorem isUnserved_false_of_served {i : OrderItem} (h : i.status = .served) :
    i.isUnserved = false := by simp [isUnserved, h, OrderItemStatus.unserved]

end OrderItem

theorem servedTotal_cancel (items : List OrderItem) :
    servedTotal (items.map (OrderItem.cancelIfUnserved now reason)) = servedTotal items := by
  induction items with
  | nil => rfl
  | cons i items ih =>
    rw [List.map_cons, servedTotal_cons, servedTotal_cons, ih]
    congr 1
    unfold OrderItem.cancelIfUnserved
    split
    · rename_i hu
      have hs : i.status ≠ .served := fun hs => by
        simp [OrderItem.isUnserved_false_of_served hs] at hu
      simp [hs]
    · rfl

namespace Data

theorem itemsOf_of_nil (ho : w.orders = []) (hi : w.items = []) :
    (d.overlay w).itemsOf k = d.itemsOf k := by
  have hs : (d.overlay w).inSession k = d.inSession k := funext fun i => by simp [inSession, ho]
  simp [itemsOf, hi, hs]

theorem lookup_cancelUnserved {items : List OrderItem} (hu : UniqueKeys items) {i : OrderItem} (hi : i ∈ items) :
    (lookup i.id (cancelUnserved now reason items)).getD i = i.cancelIfUnserved now reason := by
  have hf (i : OrderItem) : key (i.cancel .system now (some reason)) = key i := rfl
  have hl : lookup i.id items = some i := lookup_of_mem hu hi
  rw [cancelUnserved, lookup_changed hf _ hu, hl]
  unfold OrderItem.cancelIfUnserved
  cases h : i.isUnserved <;> simp [Option.filter_some, h]

theorem lookup_cancelUnserved_none {items : List OrderItem} (h : ∀ i ∈ items, i.id ≠ k) :
    lookup k (cancelUnserved now reason items) = none := by
  rw [lookup_eq_none]
  intro w hw
  obtain ⟨i, hi, -, hm⟩ := cancelUnserved_move hw
  simpa [hm.id_eq] using h i hi

theorem items_cancelled {items : List OrderItem} (hk : UniqueKeys d.items) (hu : UniqueKeys items)
    (hsub : items ⊆ d.items) (hi : w.items = cancelUnserved now reason items) :
    (d.overlay w).items = d.items.map fun i => if i ∈ items then i.cancelIfUnserved now reason else i := by
  have hnew : w.items.filter (fun v => (lookup (key v) d.items).isNone) = [] := by
    rw [List.filter_eq_nil_iff, hi]
    intro v hv
    obtain ⟨i, hm, -, hv⟩ := cancelUnserved_move hv
    have hl : lookup i.id d.items = some i := lookup_of_mem hk (hsub hm)
    simp [hv.id_eq, hl]
  rw [overlay_items, KeyedTable.overlay, hnew, List.append_nil]
  refine List.map_congr_left fun i hm => ?_
  rw [hi]
  split
  · rename_i hin
    exact lookup_cancelUnserved hu hin
  · rename_i hout
    have hne : ∀ j ∈ items, j.id ≠ i.id := fun j hj he => hout (eq_of_key_eq hk (hsub hj) hm he ▸ hj)
    rw [key_item, lookup_cancelUnserved_none hne]
    rfl

/-- The items of the session afterwards: of those that were met, the unserved ones are cancelled. -/
theorem itemsOf_cancelled {items late : List OrderItem} (hk : UniqueKeys d.items)
    (hs : d.itemsOf k = items ++ late) (ho : w.orders = [])
    (hi : w.items = cancelUnserved now reason items) :
    (d.overlay w).itemsOf k = items.map (OrderItem.cancelIfUnserved now reason) ++ late := by
  have hids : UniqueKeys (items ++ late) := by
    rw [← hs]
    exact hk.sublist (List.filter_sublist.map key)
  have hnodup := List.Nodup.of_map _ hids
  have hu : UniqueKeys items := hids.sublist ((List.sublist_append_left items late).map key)
  have hsub : items ⊆ d.items := fun i hm => (mem_itemsOf.mp (hs ▸ List.mem_append_left late hm)).1
  have hp : (d.overlay w).inSession k ∘
      (fun i => if i ∈ items then i.cancelIfUnserved now reason else i) = d.inSession k := by
    funext i
    have hin (i : OrderItem) : (d.overlay w).inSession k i = d.inSession k i := by simp [inSession, ho]
    simp only [Function.comp, hin]
    split
    · exact inSession_congr (by simp)
    · rfl
  have hlate : late.map (fun i => if i ∈ items then i.cancelIfUnserved now reason else i) = late := by
    refine (List.map_congr_left fun i hm => if_neg fun hin => ?_).trans late.map_id
    exact (List.nodup_append.mp hnodup).2.2 i hin i hm rfl
  rw [itemsOf, items_cancelled hk hu hsub hi, List.filter_map, hp, ← itemsOf, hs, List.map_append, hlate]
  congr 1
  exact List.map_congr_left fun i hm => if_pos hm

theorem dismissedCalls_none (hd : d.Ok owner) {s : TableSession} (hs : lookup s.id d.sessions = some s)
    (hw : w.calls = d.dismissedCalls s.id s.restaurantId now) {c : StaffCall}
    (hc : c ∈ (d.overlay w).calls) (hk : c.tableSessionId = s.id) : c.status ≠ .pending := by
  intro hp
  rw [overlay_calls, hw, mem_overlay hd.callIds hd.dismissedCalls_ids] at hc
  rcases hc with hc | ⟨hc, hn⟩
  · obtain ⟨c', -, rfl⟩ := mem_dismissedCalls.mp hc
    cases hp
  · obtain ⟨s', hs', hr⟩ := hd.callSession c hc
    rw [hk, hs] at hs'
    cases hs'
    have hm := mem_pendingCalls.mpr ⟨hc, hk, hr.symm, hp⟩
    exact lookup_eq_none.mp hn _ (mem_dismissedCalls.mpr ⟨c, hm, rfl⟩) rfl

end Data

section Leave

variable {s : TableSession} {items : List OrderItem} {kind : Leave}

@[simp] theorem Leave.row_id (stage : Stage) : (kind.row now d s stage).id = s.id := by
  cases kind <;> cases stage <;> rfl

@[simp] theorem Leave.row_restaurantId (stage : Stage) :
    (kind.row now d s stage).restaurantId = s.restaurantId := by
  cases kind <;> cases stage <;> rfl

def Leave.status : Leave → SessionStatus
  | close => .closed
  | abandon => .abandoned

@[simp] theorem Leave.row_status (stage : Stage) : (kind.row now d s stage).status = kind.status := by
  cases kind <;> cases stage <;> rfl

variable (hd : d.Ok owner) (hv : (Holding.leaving s items kind .dismissed).Valid owner now d)

include hd hv

/-- Orders without the lock may have added items that nothing cancels. -/
theorem leaving_itemsOf : ∃ late, d.itemsOf s.id = items ++ late ∧ (∀ i ∈ late, i.status = .pending) ∧
    (d.overlay ((Holding.leaving s items kind .dismissed).writes now d)).itemsOf s.id =
      items.map (OrderItem.cancelIfUnserved now kind.reason) ++ late := by
  obtain ⟨late, he, hp⟩ := hv.2.2
  exact ⟨late, he, hp, Data.itemsOf_cancelled hd.itemIds he rfl rfl⟩

theorem leaving_itemsOf_all (hall : d.itemsOf s.id = items) :
    (d.overlay ((Holding.leaving s items kind .dismissed).writes now d)).itemsOf s.id =
      items.map (OrderItem.cancelIfUnserved now kind.reason) := by
  obtain ⟨late, he, -, hafter⟩ := leaving_itemsOf hd hv
  obtain rfl : late = [] := by simpa [hall] using he
  rw [hafter, List.append_nil]

theorem leaving_no_unserved (hall : d.itemsOf s.id = items) {i : OrderItem}
    (hi : i ∈ (d.overlay ((Holding.leaving s items kind .dismissed).writes now d)).itemsOf s.id) :
    i.isUnserved = false := by
  rw [leaving_itemsOf_all hd hv hall] at hi
  obtain ⟨j, -, rfl⟩ := List.mem_map.mp hi
  exact j.cancelIfUnserved_served

theorem leaving_no_pending {c : StaffCall}
    (hc : c ∈ (d.overlay ((Holding.leaving s items kind .dismissed).writes now d)).calls)
    (hk : c.tableSessionId = s.id) : c.status ≠ .pending :=
  Data.dismissedCalls_none hd hv.1 rfl hc hk

/-- A checkout stores the total of the items that are served afterwards. -/
theorem leaving_total (hk : kind = .close) :
    (kind.row now d s .dismissed).totalAmount = some (servedTotal
      ((d.overlay ((Holding.leaving s items kind .dismissed).writes now d)).itemsOf s.id)) := by
  obtain ⟨late, -, hp, hafter⟩ := leaving_itemsOf hd hv
  rw [hafter, Data.servedTotal_append_pending hp, servedTotal_cancel, ← hv.2.2.servedTotal]
  subst hk
  rfl

end Leave

end QOrder
