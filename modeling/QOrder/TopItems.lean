import Mathlib.Algebra.BigOperators.Group.Finset.Basic
import QOrder.Dues
import QOrder.Sheets

/-! The best sellers of a report. The rows count every dish served in the window once, and
whatever the fifty rows leave out has sold no more than any of them. -/

namespace QOrder

open KeyedTable Concurrency

section Groups

variable {α K : Type} [DecidableEq K] {f : α → K} {w : α → Nat}

theorem sum_groups_of_nodup {keys : List K} (hn : keys.Nodup) (l : List α) (h : ∀ a ∈ l, f a ∈ keys) :
    (keys.map fun k => ((l.filter fun a => f a == k).map w).sum).sum = (l.map w).sum := by
  induction l with
  | nil => simp
  | cons a l ih =>
    have hl := ih fun b hb => h b (List.mem_cons_of_mem a hb)
    have hone : (keys.map fun k => if f a = k then w a else 0).sum = w a := by
      have hmem := h a List.mem_cons_self
      rw [← List.sum_toFinset _ hn, Finset.sum_ite_eq]
      simp [hmem]
    have hsplit (k : K) : (((a :: l).filter fun b => f b == k).map w).sum =
        (if f a = k then w a else 0) + ((l.filter fun b => f b == k).map w).sum := by
      by_cases hk : f a = k
      · simp [hk]
      · simp [hk]
    simp only [hsplit, List.sum_map_add]
    rw [hone, hl, List.map_cons, List.sum_cons]

/-- The groups of the keys that occur add up to the whole. -/
theorem sum_groups (l : List α) :
    ((l.map f).dedup.map fun k => ((l.filter fun a => f a == k).map w).sum).sum = (l.map w).sum :=
  sum_groups_of_nodup (List.nodup_dedup _) l fun a ha => by simpa using ⟨a, ha, rfl⟩

end Groups

/-- What was served in the window. -/
def servedItems (d : Data) (restaurantId : Uuid) (clock : ReportClock) : List OrderItem :=
  d.items.filter fun oi => oi.restaurantId == restaurantId && oi.status == .served &&
    oi.servedAt.any fun t => clock.sinceInstant ≤ t

def servedQuantity (d : Data) (restaurantId : Uuid) (clock : ReportClock) (name : String) : Nat :=
  (((servedItems d restaurantId clock).filter fun oi => oi.nameSnapshot == name).map OrderItem.quantity).sum

/-- The rows rank the dishes that were served, each once and with all its portions. -/
structure Ranks (d : Data) (restaurantId : Uuid) (clock : ReportClock) (rows : List TopItem) : Prop where
  once : (rows.map TopItem.name).Nodup
  sold : ∀ row ∈ rows, row.sold = servedQuantity d restaurantId clock row.name
  occurs : ∀ row ∈ rows, ∃ oi ∈ servedItems d restaurantId clock, oi.nameSnapshot = row.name
  sorted : rows.Pairwise fun a b => b.sold ≤ a.sold
  unlisted : ∀ oi ∈ servedItems d restaurantId clock, oi.nameSnapshot ∉ rows.map TopItem.name →
    rows.length = 50 ∧ ∀ row ∈ rows, servedQuantity d restaurantId clock oi.nameSnapshot ≤ row.sold
  total : rows.length < 50 →
    (rows.map TopItem.sold).sum = ((servedItems d restaurantId clock).map OrderItem.quantity).sum

section Ranking

variable {owner : Uuid → Uuid} {d : Data} {restaurantId : Uuid} {clock : ReportClock} {rows : List TopItem}

theorem filter_key {rows : List Order} (hn : UniqueKeys rows) {k : Uuid} (hk : (lookup k rows).isSome = true) :
    ∃ o, (rows.filter fun o => o.id == k) = [o] := by
  obtain ⟨o, ho⟩ := Option.isSome_iff_exists.mp hk
  have hmem := mem_of_lookup ho
  have hid : o.id = k := key_of_lookup ho
  refine ⟨o, eq_singleton_of_forall (hn.of_map.filter _) (fun x hx => ?_) ?_⟩
  · obtain ⟨hx, hxk⟩ := List.mem_filter.mp hx
    exact eq_of_key_eq hn hx hmem ((beq_iff_eq.mp hxk).trans hid.symm)
  · simpa [hid] using hmem

/-- Every item has its one order, so the join neither drops nor doubles it. -/
theorem soldItems_eq (hd : d.Ok owner) : soldItems d restaurantId clock = servedItems d restaurantId clock := by
  have hjoin : (d.items.flatMap fun oi => (d.orders.filter fun o => o.id == oi.orderId).map fun _ => oi) = d.items := by
    have hone : ∀ oi ∈ d.items, ((d.orders.filter fun o => o.id == oi.orderId).map fun _ => oi) = [oi] := by
      intro oi hoi
      obtain ⟨o, ho⟩ := filter_key hd.orderIds (hd.itemOrder oi hoi)
      rw [ho, List.map_singleton]
    rw [List.flatMap_congr hone, List.flatMap_singleton']
  unfold soldItems servedItems
  rw [hjoin]

theorem mem_topGroups (hd : d.Ok owner) {row : TopItem} : row ∈ topGroups d restaurantId clock ↔
    row.sold = servedQuantity d restaurantId clock row.name ∧
      ∃ oi ∈ servedItems d restaurantId clock, oi.nameSnapshot = row.name := by
  unfold topGroups totalSold servedQuantity
  rw [soldItems_eq hd]
  obtain ⟨name, sold⟩ := row
  simp only [List.mem_map, List.mem_dedup, TopItem.mk.injEq]
  constructor
  · rintro ⟨x, ⟨oi, hoi, rfl⟩, rfl, rfl⟩
    exact ⟨rfl, oi, hoi, rfl⟩
  · rintro ⟨rfl, oi, hoi, rfl⟩
    exact ⟨_, ⟨oi, hoi, rfl⟩, rfl, rfl⟩

theorem ranks_of_isTop (hd : d.Ok owner) (h : IsTop (topGroups d restaurantId clock) rows) :
    Ranks d restaurantId clock rows := by
  obtain ⟨sorted, hperm, hsorted, rfl⟩ := h
  have hmem {row : TopItem} (hrow : row ∈ sorted.take 50) : row ∈ topGroups d restaurantId clock :=
    hperm.subset (List.mem_of_mem_take hrow)
  have hnames : (sorted.map TopItem.name).Nodup := by
    rw [(hperm.map TopItem.name).nodup_iff]
    simp [topGroups, Function.comp_def, List.nodup_dedup]
  have hsplit := List.take_append_drop 50 sorted
  refine ⟨?_, fun row hrow => ((mem_topGroups hd).mp (hmem hrow)).1,
    fun row hrow => ((mem_topGroups hd).mp (hmem hrow)).2, hsorted.sublist (List.take_sublist 50 sorted), ?_, ?_⟩
  · exact hnames.sublist ((List.take_sublist 50 sorted).map _)
  · intro oi hoi hnot
    have hrow : (⟨oi.nameSnapshot, servedQuantity d restaurantId clock oi.nameSnapshot⟩ : TopItem) ∈ sorted :=
      hperm.symm.subset ((mem_topGroups hd).mpr ⟨rfl, oi, hoi, rfl⟩)
    rw [← hsplit, List.mem_append] at hrow
    rcases hrow with hrow | hrow
    · exact absurd (List.mem_map_of_mem (f := TopItem.name) hrow) hnot
    · have hlong : 50 < sorted.length := by
        have hpos := List.length_pos_of_mem hrow
        rw [List.length_drop] at hpos
        omega
      refine ⟨by rw [List.length_take]; omega, fun row hlisted => ?_⟩
      rw [← hsplit, List.pairwise_append] at hsorted
      exact hsorted.2.2 row hlisted _ hrow
  · intro hshort
    have hall : sorted.take 50 = sorted := by
      rw [List.length_take] at hshort
      exact List.take_of_length_le (by omega)
    have hgroups : ((topGroups d restaurantId clock).map TopItem.sold).sum =
        ((soldItems d restaurantId clock).map OrderItem.quantity).sum := by
      rw [← sum_groups (f := OrderItem.nameSnapshot) (w := OrderItem.quantity)]
      simp [topGroups, totalSold, Function.comp_def]
    rw [hall, (hperm.map TopItem.sold).sum_eq, hgroups, soldItems_eq hd]

end Ranking

section Runs

variable {n : Nat} {owner : Uuid → Uuid} {req : Fin n → Request} {D : Deployment owner} {p : Clients n}
  {restaurantId : Uuid} {clock : ReportClock} {rows : List TopItem}

/-- Whatever the clients have done, and however the groups of one total are ordered. -/
theorem top_items_rank (hr : D.Reaches req p)
    (h : IsTop (topGroups p.state.data restaurantId clock) rows) :
    Ranks p.state.data restaurantId clock rows :=
  ranks_of_isTop hr.inv.ok h

theorem top_items_rank_cafe : ∃ p, cafeLavish.Reaches (cafePortions 3 (by decide)) p ∧
    IsTop (topGroups p.state.data 1 ⟨hours 8, 0, 0⟩) [⟨"Phở bò", 3⟩] ∧
    Ranks p.state.data 1 ⟨hours 8, 0, 0⟩ [⟨"Phở bò", 3⟩] := by
  obtain ⟨p, hr, hc⟩ := cafeLavish.reaches_play (cafePortions 3 (by decide))
    (fun p => decide (topItems (topGroups p.state.data 1 ⟨hours 8, 0, 0⟩) = [⟨"Phở bò", 3⟩]))
    (steps 0 15 ++ steps 1 7) (by decide +kernel)
  have htop := isTop_topItems (topGroups p.state.data 1 ⟨hours 8, 0, 0⟩)
  rw [of_decide_eq_true hc] at htop
  exact ⟨p, hr, htop, top_items_rank hr htop⟩

end Runs

end QOrder
