import QOrder.Settlement
import QOrder.RestoreRace

/-! What the guests of a session owe: the amounts of its items that are not cancelled. Only an
order adds to it, and no total exceeds it. -/

namespace QOrder

open KeyedTable Concurrency

/-- What an item adds to the bill, once it is served. -/
def OrderItem.share (i : OrderItem) : Nat := if i.status = .cancelled then 0 else i.amount.natAbs

def due (items : List OrderItem) : Nat := (items.map OrderItem.share).sum

def Data.due (d : Data) (k : Uuid) : Nat := QOrder.due (d.itemsOf k)

/-- The row versions add no item to a session, and make none more expensive. -/
structure Data.Eases (d w : Data) : Prop where
  orders : w.orders = []
  items : ∀ i' ∈ w.items, ∃ i ∈ d.items, i.id = i'.id ∧ i.orderId = i'.orderId ∧ i'.share ≤ i.share

section Items

variable {owner : Uuid → Uuid} {i i' : OrderItem} {items items' : List OrderItem} {d w : Data} {k : Uuid}
  {now : Timestamp} {reason : String}

theorem due_cons (i : OrderItem) (items : List OrderItem) : due (i :: items) = i.share + due items := rfl

theorem due_append (items items' : List OrderItem) : due (items ++ items') = due items + due items' := by
  rw [due, due, due, List.map_append, List.sum_append]

theorem due_map_le {f : OrderItem → OrderItem} (hf : ∀ i ∈ items, (f i).share ≤ i.share) :
    due (items.map f) ≤ due items := by
  induction items with
  | nil => exact le_rfl
  | cons i items ih =>
    have hi := hf i List.mem_cons_self
    have htail := ih fun x hx => hf x (List.mem_cons_of_mem _ hx)
    rw [List.map_cons, due_cons, due_cons]
    omega

/-- The total of the served items is at most what the guests owe. -/
theorem servedTotal_le_due (items : List OrderItem) : (servedTotal items).natAbs ≤ due items := by
  induction items with
  | nil => exact le_rfl
  | cons i items ih =>
    rw [servedTotal_cons, due_cons]
    by_cases hs : i.status = .served
    · have hshare : i.share = i.amount.natAbs := if_neg (by simp [hs])
      rw [if_pos hs, hshare]
      omega
    · rw [if_neg hs]
      omega

theorem fits_of_natAbs_le {total : Int} {m : Nat} (hle : total.natAbs ≤ m) (hm : (m : Int) < 1000000000000) :
    ¬ total ≤ -1000000000000 ∧ ¬ 1000000000000 ≤ total := by
  omega

theorem OrderItem.Move.share_le (hm : i.Move now i') : i'.share ≤ i.share := by
  have hn : i.status ≠ .cancelled := by
    rcases hm.served_or_unserved with hu | ⟨hs, -, -⟩
    · intro hc
      simp [OrderItem.isUnserved, OrderItemStatus.unserved, hc] at hu
    · simp [hs]
  unfold OrderItem.share
  rw [if_neg hn, hm.amount_eq]
  split
  · exact Nat.zero_le _
  · exact le_rfl

/-- Such row versions let no session owe more. -/
theorem Data.Eases.due_le (hd : d.Ok owner) (h : d.Eases w) : (d.overlay w).due k ≤ d.due k := by
  have hnone : w.items.filter (fun x => (lookup (key x) d.items).isNone) = [] := by
    rw [List.filter_eq_nil_iff]
    intro x hx
    obtain ⟨i, hi, hid, -⟩ := h.items x hx
    have hl : lookup x.id d.items = some i := by
      rw [← hid]
      exact hd.mem_items.mp hi
    simp [hl]
  have hrow : ∀ i ∈ d.items, ((lookup (key i) w.items).getD i).orderId = i.orderId ∧
      ((lookup (key i) w.items).getD i).share ≤ i.share := by
    intro i hi
    cases hl : lookup (key i) w.items with
    | none => exact ⟨rfl, le_rfl⟩
    | some x =>
      obtain ⟨i₀, hi₀, hid, horder, hshare⟩ := h.items x (mem_of_lookup hl)
      obtain rfl := eq_of_key_eq hd.itemIds hi₀ hi (hid.trans (key_of_lookup hl))
      exact ⟨horder.symm, hshare⟩
  have hin : ∀ i ∈ d.items, ((d.overlay w).inSession k ∘ fun i => (lookup (key i) w.items).getD i) i =
      d.inSession k i := by
    intro i hi
    have hs : (d.overlay w).inSession k = d.inSession k := by
      funext j
      simp [Data.inSession, h.orders]
    rw [Function.comp, hs]
    exact Data.inSession_congr (hrow i hi).1
  have hitems : (d.overlay w).itemsOf k = (d.itemsOf k).map fun i => (lookup (key i) w.items).getD i := by
    rw [Data.itemsOf, Data.overlay_items, KeyedTable.overlay, hnone, List.append_nil, List.filter_map,
      List.filter_congr hin]
    rfl
  rw [Data.due, hitems]
  exact due_map_le fun i hi => (hrow i (Data.mem_itemsOf.mp hi).1).2

end Items

section Commit

variable {n : Nat} {owner : Uuid → Uuid} {req : Fin n → Request} {hb : List (Event n)} {e : Event n}
  {h : Holding} {d : Data} {o : Order} {items : List OrderItem} {s : TableSession} {at_ now : Timestamp}
  {k : Uuid}

/-- What a transaction without an order has written eases the data. -/
theorem Holding.eases (hv : h.Valid owner now d) (ho : (h.writes now d).orders = []) :
    d.Eases (h.writes now d) := by
  refine ⟨ho, fun i' hi' => ?_⟩
  cases h with
  | leaving s items kind stage =>
    have hi' : i' ∈ cancelUnserved now kind.reason items := by
      by_cases hst : stage = .marked
      · simp [writes, hst] at hi'
      · simpa [writes, hst] using hi'
    obtain ⟨i, hi, -, hm⟩ := Data.cancelUnserved_move hi'
    exact ⟨i, (Data.mem_itemsOf.mp (hv.2.2.subset hi)).1, hm.id_eq.symm, hm.orderId_eq.symm, hm.share_le⟩
  | moving i i'' =>
    obtain rfl := List.mem_singleton.mp hi'
    exact ⟨i, mem_of_lookup hv.1, hv.2.id_eq.symm, hv.2.orderId_eq.symm, hv.2.share_le⟩
  | moved i i'' s =>
    obtain rfl := List.mem_singleton.mp hi'
    exact ⟨i, mem_of_lookup hv.1, hv.2.1.id_eq.symm, hv.2.1.orderId_eq.symm, hv.2.1.share_le⟩
  | ordering | ordered => cases ho
  | _ => cases hi'

/-- An order adds its lines to its session, and nothing to another one. -/
theorem Holding.due_placed (hp : h.Places o items) (hd : d.Ok owner) (hv : h.Valid owner now d) :
    (d.overlay (h.writes now d)).due k = d.due k + if o.tableSessionId = k then due items else 0 := by
  have hfits := fits hd hv hp.complete
  have hplaced := hp.newOrder hv
  have hitems : (d.overlay (h.writes now d)).items = d.items ++ items := by
    rw [Data.overlay_items, hp.writes_items]
    exact overlay_new hplaced.itemNew
  have horders : (d.overlay (h.writes now d)).orders = d.orders ++ [o] := by
    rw [Data.overlay_orders, hp.writes_orders]
    refine overlay_new fun w hw => ?_
    rw [List.mem_singleton.mp hw]
    exact hplaced.orderNew
  have hold : ∀ i ∈ d.items, (d.overlay (h.writes now d)).inSession k i = d.inSession k i :=
    fun i hi => Data.inSession_overlay hd hfits (hd.itemOrder i hi)
  have hnew : ∀ i ∈ items, (d.overlay (h.writes now d)).inSession k i = decide (o.tableSessionId = k) := by
    intro i hi
    have hl : lookup i.orderId (d.overlay (h.writes now d)).orders = some o := by
      rw [hplaced.itemOrder i hi]
      refine (hd.overlay hfits).mem_orders.mp ?_
      rw [horders]
      simp
    rw [Bool.eq_iff_iff, Data.inSession_iff (hd.overlay hfits), hl, decide_eq_true_iff]
    simp
  rw [Data.due, Data.itemsOf, hitems, List.filter_append, List.filter_congr hold, List.filter_congr hnew,
    due_append]
  by_cases hk : o.tableSessionId = k
  · simp [hk, Data.due, Data.itemsOf]
  · simp [hk, Data.due, Data.itemsOf, due]

theorem Holding.orders_or_places (hc : h.Complete) : (h.writes now d).orders = [] ∨ ∃ o items, h.Places o items := by
  cases h with
  | ordering o items => exact .inr ⟨o, items, .ordering⟩
  | ordered o items s at_ => exact .inr ⟨o, items, .ordered s at_⟩
  | _ => exact .inl rfl

/-- What a session owes rises by the lines of an order, and by nothing else. -/
theorem Committed.due_le (hc : Committed owner req hb e h) (k : Uuid) : e.after.due k ≤ e.before.due k ∨
    ∃ o items, h.Places o items ∧ e.after.due k =
      e.before.due k + if o.tableSessionId = k then due items else 0 := by
  rw [hc.after]
  rcases Holding.orders_or_places hc.complete with ho | ⟨o, items, hp⟩
  · exact .inl ((Holding.eases hc.valid ho).due_le hc.ok)
  · exact .inr ⟨o, items, hp, Holding.due_placed hp hc.ok hc.valid⟩

end Commit

section Runs

variable {n : Nat} {owner : Uuid → Uuid} {req : Fin n → Request} {D : Deployment owner} {p : Clients n}

/-- With every order that is stored, the guests of its session owe less than a total can hold. -/
def Affordable (owner : Uuid → Uuid) (req : Fin n → Request) (p : Clients n) : Prop :=
  ∀ hb e post h o items, p.state.history = hb ++ e :: post → Committed owner req hb e h →
    h.Places o items → ((e.before.due o.tableSessionId + due items : Nat) : Money) < numericLimit

theorem affordable_of_after (h : ∀ e ∈ p.state.history, ∀ s ∈ e.before.sessions,
    (e.after.due s.id : Money) < numericLimit) : Affordable owner req p := by
  intro hb e post h' o items hh hc hp
  have hdue : e.after.due o.tableSessionId = e.before.due o.tableSessionId + due items := by
    have hrise := Holding.due_placed (k := o.tableSessionId) hp hc.ok hc.valid
    rwa [← hc.after, if_pos rfl] at hrise
  obtain ⟨s, hs, -⟩ := (hp.newOrder hc.valid).session
  have hlt := h e (by simp [hh]) s (mem_of_lookup hs)
  rwa [show s.id = o.tableSessionId from key_of_lookup hs, hdue] at hlt

/-- In every state reached by orders within the limit the total of a session fits its column, and
no statement has stored one that does not. -/
theorem totals_fit (h₀ : D.data = {}) (hr : D.Reaches req p) (hC : Affordable owner req p) :
    (∀ s ∈ p.state.data.sessions, servedTotal (p.state.data.itemsOf s.id) < numericLimit) ∧
      ∀ e ∈ p.state.history, e.overflows = false := by
  have hdue := hr.preserved (P := fun d => ∀ k, (d.due k : Money) < numericLimit)
    (by simp [h₀, Data.due, Data.itemsOf, due, numericLimit]) fun hb e post h hh hc hbefore k => by
      rcases hc.due_le k with hle | ⟨o, items, hp, heq⟩
      · exact lt_of_le_of_lt (Int.ofNat_le.mpr hle) (hbefore k)
      · rw [heq]
        by_cases hk : o.tableSessionId = k
        · rw [if_pos hk, ← hk]
          exact hC hb e post h o items hh hc hp
        · rw [if_neg hk]
          exact hbefore k
  refine ⟨fun s _ => ?_, fun e he => ?_⟩
  · have hle := Int.le_natAbs.trans (Int.ofNat_le.mpr (servedTotal_le_due (p.state.data.itemsOf s.id)))
    exact lt_of_le_of_lt hle (hdue.2 s.id)
  · obtain ⟨hb, post, hh⟩ := List.append_of_mem he
    obtain ⟨p₀, q, f, r, σ', hr₀, rfl, hp, hx, hev, -⟩ := hr.replay hh
    obtain ⟨h, ha, hallowed⟩ := hr₀.kept.ready hp
    have hlt := hdue.1 e he
    rw [hev] at hlt ⊢
    cases q with
    | command c =>
      cases c with
      | setTotal k total =>
        obtain ⟨s, items, rfl, -, rfl⟩ := hallowed
        have hle := servedTotal_le_due (p₀.state.data.itemsOf s.id)
        rw [ha.valid.2.2.servedTotal] at hle
        have hs : (p₀.state.data.due s.id : Int) < 1000000000000 := hlt s.id
        obtain ⟨hlow, hhigh⟩ := fits_of_natAbs_le hle hs
        simp [Event.overflows, Sys.event, numericLimit, hlow, hhigh]
      | _ => rfl
    | _ => rfl

section Schedules

def lavishCatalog : Catalog where
  restaurants := [{ id := 1 }]
  settings := [{ restaurantId := 1 }]
  tables := [{ id := 2, restaurantId := 1, qrToken := "ban-1" }]
  menuItems := [{ id := 3, restaurantId := 1, name := "Phở bò", price := 999999999999, prepTimeMinutes := 10 }]

theorem lavishCatalog_owned : lavishCatalog.Owned fun _ => 1 := by
  simp [Catalog.Owned, lavishCatalog]

/-- A café whose only dish has the highest price that the column holds. -/
def cafeLavish : Deployment fun _ => 1 where
  catalog := lavishCatalog
  data := {}
  clock := 0
  appClock := 0
  nextUuid := 10
  owned := lavishCatalog_owned
  ok := empty_ok
  below := empty_below

/-- So many portions are ordered, served and paid for. -/
def cafePortions (quantity : Nat) (h : 0 < quantity) : Fin 3 → Request
  | 0 => .createOrder "ban-1" ⟨[{ menuItemId := 3, quantity, quantity_pos := h }], by simp⟩
  | 1 => .setItemStatus cafeStaff 12 .served
  | 2 => .checkoutSession cafeStaff 10

theorem totals_fit_cafe : ∃ p, cafeLavish.Reaches (cafePortions 1 (by decide)) p ∧
    (∃ s ∈ p.state.data.sessions, s.status = .closed ∧ s.totalAmount = some 999999999999) ∧
      ∀ e ∈ p.state.history, e.overflows = false := by
  obtain ⟨p, hr, hc⟩ := cafeLavish.reaches_play (cafePortions 1 (by decide))
    (fun p => (p.state.data.sessions.any fun s => s.status = .closed ∧ s.totalAmount = some 999999999999) &&
      p.state.history.all fun e => e.before.sessions.all fun s => decide ((e.after.due s.id : Money) < numericLimit))
    (steps 0 15 ++ steps 1 7 ++ steps 2 9) (by decide +kernel)
  obtain ⟨hclosed, hafter⟩ := Bool.and_eq_true_iff.mp hc
  obtain ⟨s, hs, hs'⟩ := List.any_eq_true.mp hclosed
  have hC : Affordable (fun _ => 1) (cafePortions 1 (by decide)) p := affordable_of_after fun e he s hs =>
    of_decide_eq_true (List.all_eq_true.mp (List.all_eq_true.mp hafter e he) s hs)
  exact ⟨p, hr, ⟨s, hs, of_decide_eq_true hs'⟩, (totals_fit rfl hr hC).2⟩

/-- With two portions the checkout fails. -/
theorem totals_fit_fails : ∃ p, cafeLavish.Reaches (cafePortions 2 (by decide)) p ∧
    (∀ e ∈ p.state.history, ∀ m ∈ e.catalog.menuItems, 0 ≤ m.price ∧ m.price < numericLimit) ∧
    (∃ s ∈ p.state.data.sessions, s.status = .opened ∧
      numericLimit ≤ servedTotal (p.state.data.itemsOf s.id)) ∧
    failure p 2 = some (.db .dataError) := by
  obtain ⟨p, hr, hc⟩ := cafeLavish.reaches_play (cafePortions 2 (by decide))
    (fun p => (p.state.history.all fun e => e.catalog.menuItems.all fun m =>
        decide (0 ≤ m.price ∧ m.price < numericLimit)) &&
      (p.state.data.sessions.any fun s => s.status = .opened ∧
        numericLimit ≤ servedTotal (p.state.data.itemsOf s.id)) && decide (failure p 2 = some (.db .dataError)))
    (steps 0 15 ++ steps 1 7 ++ steps 2 5) (by decide +kernel)
  simp only [Bool.and_eq_true] at hc
  obtain ⟨⟨hpriced, hover⟩, hfail⟩ := hc
  obtain ⟨s, hs, hs'⟩ := List.any_eq_true.mp hover
  refine ⟨p, hr, fun e he m hm => ?_, ⟨s, hs, of_decide_eq_true hs'⟩, of_decide_eq_true hfail⟩
  exact of_decide_eq_true (List.all_eq_true.mp (List.all_eq_true.mp hpriced e he) m hm)

end Schedules

end Runs

end QOrder
