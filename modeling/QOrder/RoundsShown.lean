import Mathlib.Data.List.Pairwise
import QOrder.OrderRounds
import QOrder.OwnOrder

/-! When the rounds of the page are its orders: what a page knows of its items after any
messages and answers, and what the panel makes of it. -/

namespace QOrder

namespace MenuPage

open OrderBook

variable {book : OrderBook} {page : Page} {x y : SessionItem} {group : OrderGroup}
  {sorted : List OrderGroup} {engine : SortEngine OrderGroup String}

section Knowledge

/-- An item has come with its order and its time, or with neither. -/
def Placed (book : OrderBook) (x : SessionItem) : Prop :=
  x.orderId = none ∧ x.requestedAt = none ∨
    x.orderId = some (book.orderOf x.id) ∧ x.requestedAt = some (book.requestedAt x)

theorem placed_ofRow {i : OrderItem} (h : book.Row i) : Placed book (ofRow i) := by
  obtain ⟨horder, hat⟩ := h
  refine .inr ⟨congrArg some horder, congrArg some ?_⟩
  rw [hat, horder]
  rfl

theorem placed_ofResponse {i : OrderItem} {orderId : Uuid} (horder : i.orderId = orderId) (h : book.Row i) :
    Placed book (ofResponse orderId i) := by
  subst horder
  exact placed_ofRow h

theorem mem_mapSet {byId : Page} (h : y ∈ mapSet byId x) : y = x ∨ y ∈ byId := by
  unfold mapSet at h
  by_cases hc : (byId.map SessionItem.id).contains x.id = true
  · rw [if_pos hc] at h
    obtain ⟨z, hz, rfl⟩ := List.mem_map.mp h
    by_cases hid : z.id = x.id
    · exact .inl (if_pos hid)
    · exact .inr (by rw [if_neg hid]; exact hz)
  · rw [if_neg hc] at h
    rcases List.mem_append.mp h with h | h
    · exact .inr h
    · exact .inl (List.mem_singleton.mp h)

theorem mem_mapSets {new byId : Page} (h : y ∈ new.foldl mapSet byId) : y ∈ new ∨ y ∈ byId := by
  induction new generalizing byId with
  | nil => exact .inr h
  | cons x new ih =>
    rcases ih h with h | h
    · exact .inl (List.mem_cons_of_mem _ h)
    · rcases mem_mapSet h with rfl | h
      · exact .inl List.mem_cons_self
      · exact .inr h

/-- A change of one item's status keeps what is known of it. -/
theorem placed_map {id : Uuid} {f : SessionItem → SessionItem} (hf : ∀ x, (f x).id = x.id ∧
      (f x).orderId = x.orderId ∧ (f x).requestedAt = x.requestedAt) (h : ∀ x ∈ page, Placed book x) :
    ∀ x ∈ page.map (fun i => if i.id = id then f i else i), Placed book x := by
  intro y hy
  obtain ⟨x, hx, rfl⟩ := List.mem_map.mp hy
  have hplaced := h x hx
  by_cases hid : x.id = id
  · obtain ⟨hid', horder, hat⟩ := hf x
    rw [if_pos hid, Placed, requestedAt, hid', horder, hat]
    exact hplaced
  · rw [if_neg hid]
    exact hplaced

theorem placed_message (now : Timestamp) (event : RealtimeEvent) (h : ∀ x ∈ page, Placed book x) :
    ∀ x ∈ handleWsEvent now page event, Placed book x := by
  cases event with
  | itemUpdated id status orderId => exact placed_map (fun x => ⟨rfl, rfl, rfl⟩) h
  | itemCancelled id status by_ orderId => exact placed_map (fun x => ⟨rfl, rfl, rfl⟩) h
  | orderCreated orderId sessionId items =>
    intro y hy
    rcases List.mem_append.mp hy with hy | hy
    · exact h y hy
    · obtain ⟨i, -, rfl⟩ := List.mem_map.mp hy
      exact .inl ⟨rfl, rfl⟩
  | _ => exact h

theorem placed_answer {orderId : Uuid} {items : List OrderItem}
    (htells : ∀ i ∈ items, i.orderId = orderId ∧ book.Row i) (h : ∀ x ∈ page, Placed book x) :
    ∀ x ∈ handleSubmitOrder orderId items page, Placed book x := by
  intro y hy
  rcases mem_mapSets hy with hy | hy
  · obtain ⟨i, hi, rfl⟩ := List.mem_map.mp hy
    exact placed_ofResponse (htells i hi).1 (htells i hi).2
  · rcases mem_mapSets hy with hy | hy
    · exact h y hy
    · exact absurd hy List.not_mem_nil

theorem placed_step {s : PageStep} (htells : book.Tells s) (h : ∀ x ∈ page, Placed book x) :
    ∀ x ∈ step page s, Placed book x := by
  cases s with
  | message now event => exact placed_message now event h
  | answer orderId items => exact placed_answer htells h

theorem placed_reached {rows : List OrderItem} {steps : List PageStep} (hrows : ∀ i ∈ rows, book.Row i)
    (hsteps : ∀ s ∈ steps, book.Tells s) : ∀ x ∈ reached rows steps, Placed book x := by
  induction steps using List.reverseRecOn with
  | nil =>
    intro x hx
    obtain ⟨i, hi, rfl⟩ := List.mem_map.mp hx
    exact placed_ofRow (hrows i hi)
  | append_singleton steps s ih =>
    rw [reached, List.foldl_append]
    exact placed_step (hsteps s (by simp)) (ih fun s hs => hsteps s (List.mem_append_left _ hs))

end Knowledge

section Groups

theorem earliestOf_eq {items : Page} {at_ : Option Timestamp} (hne : items ≠ [])
    (h : ∀ x ∈ items, x.requestedAt = at_) : earliestOf items = at_ := by
  have hsame : isoBefore at_ at_ = false := by
    cases at_ with
    | none => rfl
    | some t => simp [isoBefore]
  have hfold : ∀ items : Page, (∀ x ∈ items, x.requestedAt = at_) →
      items.foldl (fun earliest i => if isoBefore i.requestedAt earliest then i.requestedAt else earliest) at_ = at_ := by
    intro items hitems
    induction items with
    | nil => rfl
    | cons x items ih =>
      rw [List.foldl_cons, hitems x List.mem_cons_self, hsame]
      exact ih fun y hy => hitems y (List.mem_cons_of_mem _ hy)
  cases items with
  | nil => exact absurd rfl hne
  | cons x items =>
    rw [earliestOf, List.head?_cons, Option.bind_some, h x List.mem_cons_self]
    exact hfold _ h

/-- A group is a bucket of the page with the time of its first item. -/
structure IsGroup (page : Page) (group : OrderGroup) : Prop where
  bucket : (group.orderId, group.items) ∈ byOrder page
  at_ : group.at_ = earliestOf group.items

theorem mem_groups : group ∈ groups page ↔ IsGroup page group := by
  constructor
  · intro h
    obtain ⟨bucket, hbucket, rfl⟩ := List.mem_map.mp h
    exact ⟨hbucket, rfl⟩
  · rintro ⟨hbucket, hat⟩
    exact List.mem_map.mpr ⟨_, hbucket, by rw [← hat]⟩

theorem IsGroup.keyed (h : IsGroup page group) (hx : x ∈ group.items) : x.orderId = group.orderId :=
  (buckets_byOrder page).keyed _ h.bucket x hx

theorem IsGroup.mem_page (h : IsGroup page group) (hx : x ∈ group.items) : x ∈ page :=
  (buckets_byOrder page).perm.mem_iff.mp (List.mem_flatMap.mpr ⟨_, h.bucket, hx⟩)

theorem IsGroup.nonempty (h : IsGroup page group) : ∃ x, x ∈ group.items :=
  List.exists_mem_of_ne_nil _ ((buckets_byOrder page).nonempty _ h.bucket)

theorem exists_group (hx : x ∈ page) : ∃ group, IsGroup page group ∧ x ∈ group.items := by
  obtain ⟨bucket, hbucket, hmem⟩ := List.mem_flatMap.mp ((buckets_byOrder page).perm.mem_iff.mpr hx)
  exact ⟨⟨bucket.1, bucket.2, earliestOf bucket.2⟩, ⟨hbucket, rfl⟩, hmem⟩

/-- Items with the same key are in one group. -/
theorem IsGroup.mem_of_key (h : IsGroup page group) (hy : y ∈ page) (hkey : y.orderId = group.orderId) :
    y ∈ group.items := by
  obtain ⟨other, hother, hmem⟩ := exists_group hy
  have hsame : (other.orderId, other.items) = (group.orderId, group.items) :=
    List.inj_on_of_nodup_map (buckets_byOrder page).keys hother.bucket h.bucket ((hother.keyed hmem).symm.trans hkey)
  exact (Prod.mk.inj hsame).2 ▸ hmem

theorem groups_keys (page : Page) : ((groups page).map OrderGroup.orderId).Nodup := by
  rw [groups, List.map_map]
  exact (buckets_byOrder page).keys

/-- The time of a group is that of its items. -/
theorem IsGroup.at_eq (h : IsGroup page group) (hpage : ∀ x ∈ page, Placed book x) (hx : x ∈ group.items) :
    group.at_ = x.requestedAt := by
  rw [h.at_]
  refine earliestOf_eq (List.ne_nil_of_mem hx) fun y hy => ?_
  have hkey : y.orderId = x.orderId := (h.keyed hy).trans (h.keyed hx).symm
  rcases hpage x (h.mem_page hx) with ⟨hox, hax⟩ | ⟨hox, hax⟩ <;>
    rcases hpage y (h.mem_page hy) with ⟨hoy, hay⟩ | ⟨hoy, hay⟩
  · rw [hax, hay]
  · rw [hox, hoy] at hkey
    cases hkey
  · rw [hox, hoy] at hkey
    cases hkey
  · rw [hox, hoy, Option.some.injEq] at hkey
    rw [hax, hay, requestedAt, requestedAt, hkey]

end Groups

section Numbering

theorem numbered_groups (sorted : List OrderGroup) : (numbered sorted).map OrderRound.toOrderGroup = sorted := by
  refine List.ext_getElem (by simp [numbered]) ?_
  intro i h h'
  simp [numbered]

theorem numbered_numbers (sorted : List OrderGroup) :
    (numbered sorted).map OrderRound.number = List.range' 1 (numbered sorted).length := by
  refine List.ext_getElem (by simp [numbered]) ?_
  intro i h h'
  simp [numbered, Nat.add_comm]

/-- The earliest item of a group is no later than those of another. -/
def NotLater (book : OrderBook) (group later : OrderGroup) : Prop :=
  ∃ x ∈ group.items, ∀ y ∈ later.items, book.requestedAt x ≤ book.requestedAt y

/-- Groups that are the orders, by their times, make the rounds of the page. -/
theorem right_of_groups (hperm : sorted.Perm (groups page))
    (horders : ∀ x ∈ page, ∀ y ∈ page, x.orderId = y.orderId ↔ book.orderOf x.id = book.orderOf y.id)
    (htimes : sorted.Pairwise (NotLater book)) : book.RoundsRight page (numbered sorted) := by
  have hmap := numbered_groups sorted
  have hgroup : ∀ round ∈ numbered sorted, IsGroup page round.toOrderGroup := by
    intro round hround
    exact mem_groups.mp (hperm.mem_iff.mp (hmap ▸ List.mem_map_of_mem hround))
  have hround : ∀ x ∈ page, ∃ round ∈ numbered sorted, x ∈ round.items := by
    intro x hx
    obtain ⟨group, hg, hmem⟩ := exists_group hx
    have hsorted : group ∈ (numbered sorted).map OrderRound.toOrderGroup := by
      rw [hmap]
      exact hperm.mem_iff.mpr (mem_groups.mpr hg)
    obtain ⟨round, hround, rfl⟩ := List.mem_map.mp hsorted
    exact ⟨round, hround, hmem⟩
  have hkeys : ((numbered sorted).map fun round => round.orderId).Nodup := by
    have hnodup := ((hperm.map OrderGroup.orderId).nodup_iff).mpr (groups_keys page)
    rw [← hmap, List.map_map] at hnodup
    exact hnodup
  refine ⟨?_, ?_, ?_, numbered_numbers sorted, ?_⟩
  · have hflat : (numbered sorted).flatMap (fun round => round.items) = sorted.flatMap OrderGroup.items := by
      conv_rhs => rw [← hmap]
      rw [List.flatMap_map]
    rw [hflat]
    refine (hperm.flatMap_right _).trans ?_
    rw [groups, List.flatMap_map]
    exact (buckets_byOrder page).perm
  · intro x hx
    obtain ⟨round, hmem, hitem⟩ := hround x hx
    refine ⟨round, ⟨hmem, hitem⟩, ?_⟩
    rintro other ⟨hother, hitem'⟩
    exact List.inj_on_of_nodup_map hkeys hother hmem
      (((hgroup other hother).keyed hitem').symm.trans ((hgroup round hmem).keyed hitem))
  · intro x hx y hy
    rw [← horders x hx y hy]
    constructor
    · rintro ⟨round, hmem, hxr, hyr⟩
      exact ((hgroup round hmem).keyed hxr).trans ((hgroup round hmem).keyed hyr).symm
    · intro hkey
      obtain ⟨round, hmem, hxr⟩ := hround x hx
      exact ⟨round, hmem, hxr, (hgroup round hmem).mem_of_key hy (hkey.symm.trans ((hgroup round hmem).keyed hxr))⟩
  · rw [← hmap, List.pairwise_map] at htimes
    exact htimes

end Numbering

section Sorting

/-- The sign by which two times that are there are compared. -/
def rankSign (a b : OrderGroup) : Int :=
  if isoRank (a.at_.getD 0) < isoRank (b.at_.getD 0) then -1
  else if isoRank (b.at_.getD 0) < isoRank (a.at_.getD 0) then 1 else 0

theorem rankSign_le {a b : OrderGroup} : rankSign a b ≤ 0 ↔ isoRank (a.at_.getD 0) ≤ isoRank (b.at_.getD 0) := by
  unfold rankSign
  split
  · omega
  · split <;> omega

theorem rankSign_consistent : SortEngine.Consistent rankSign := by
  constructor
  · intro a b
    unfold rankSign
    split <;> split <;> omega
  · intro a b d hab hbd
    rw [rankSign_le] at hab hbd ⊢
    exact hab.trans hbd

theorem compare_eq {a b : OrderGroup} (ha : a.at_.isSome) (hb : b.at_.isSome) :
    localeCompare a.at_ b.at_ = .ok (rankSign a b) := by
  obtain ⟨s, hs⟩ := Option.isSome_iff_exists.mp ha
  obtain ⟨t, ht⟩ := Option.isSome_iff_exists.mp hb
  simp [rankSign, hs, ht, localeCompare]

/-- Where every item has come with its order, every engine sorts the groups by their texts. -/
theorem rounds_complete (hpage : ∀ x ∈ page, Placed book x) (hall : ∀ x ∈ page, x.orderId ≠ none)
    (hengine : engine.Conforms) : ∃ sorted, rounds engine page = .ok (numbered sorted) ∧
      sorted.Perm (groups page) ∧ sorted.Pairwise fun a b => rankSign a b ≤ 0 := by
  have hsome : ∀ group ∈ groups page, group.at_.isSome := by
    intro group hg
    have hgroup := mem_groups.mp hg
    obtain ⟨x, hx⟩ := hgroup.nonempty
    rw [hgroup.at_eq hpage hx]
    rcases hpage x (hgroup.mem_page hx) with ⟨hnone, -⟩ | ⟨-, hat⟩
    · exact absurd hnone (hall x (hgroup.mem_page hx))
    · rw [hat]
      rfl
  obtain ⟨sorted, hsort, hperm, hsorted⟩ := hengine.sorts (fun a b => localeCompare a.at_ b.at_) rankSign
    (groups page) (fun a ha b hb => compare_eq (hsome a ha) (hsome b hb)) rankSign_consistent
  exact ⟨sorted, by rw [rounds, hsort]; rfl, hperm, hsorted⟩

/-- A group has the time of its order. -/
theorem IsGroup.at_order (h : IsGroup page group) (hpage : ∀ x ∈ page, Placed book x)
    (hall : ∀ x ∈ page, x.orderId ≠ none) (hx : x ∈ group.items) : group.at_ = some (book.requestedAt x) := by
  rw [h.at_eq hpage hx]
  rcases hpage x (h.mem_page hx) with ⟨hnone, -⟩ | ⟨-, hat⟩
  · exact absurd hnone (hall x (h.mem_page hx))
  · exact hat

theorem requestedAt_congr (hpage : ∀ x ∈ page, Placed book x) (hall : ∀ x ∈ page, x.orderId ≠ none)
    (hx : x ∈ page) (hy : y ∈ page) : x.orderId = y.orderId ↔ book.orderOf x.id = book.orderOf y.id := by
  rcases hpage x hx with ⟨hnone, -⟩ | ⟨hox, -⟩
  · exact absurd hnone (hall x hx)
  · rcases hpage y hy with ⟨hnone, -⟩ | ⟨hoy, -⟩
    · exact absurd hnone (hall y hy)
    · rw [hox, hoy, Option.some.injEq]

end Sorting

section Rounds

theorem right_of_complete (hpage : ∀ x ∈ page, Placed book x) (hall : ∀ x ∈ page, x.orderId ≠ none)
    (hread : ∀ x ∈ page, ∀ y ∈ page, ¬ Misread (book.requestedAt x) (book.requestedAt y))
    (hengine : engine.Conforms) : ∃ shown, rounds engine page = .ok shown ∧ book.RoundsRight page shown := by
  obtain ⟨sorted, hrounds, hperm, hsorted⟩ := rounds_complete hpage hall hengine
  refine ⟨_, hrounds, right_of_groups hperm (fun x hx y hy => requestedAt_congr hpage hall hx hy) ?_⟩
  refine hsorted.imp_of_mem fun {a b} ha hb hle => ?_
  have hga := mem_groups.mp (hperm.mem_iff.mp ha)
  have hgb := mem_groups.mp (hperm.mem_iff.mp hb)
  obtain ⟨x, hx⟩ := hga.nonempty
  refine ⟨x, hx, fun y hy => ?_⟩
  rw [rankSign_le, hga.at_order hpage hall hx, hgb.at_order hpage hall hy] at hle
  by_contra hlt
  exact hread y (hgb.mem_page hy) x (hga.mem_page hx) (misread_of_lt (not_le.mp hlt) hle)

theorem groups_short (hbare : ∀ x ∈ page, x.orderId = none) : (groups page).length ≤ 1 := by
  have hkeys : ∀ group ∈ groups page, group.orderId = none := by
    intro group hg
    have hgroup := mem_groups.mp hg
    obtain ⟨x, hx⟩ := hgroup.nonempty
    rw [← hgroup.keyed hx]
    exact hbare x (hgroup.mem_page hx)
  have hnodup := groups_keys page
  rw [List.map_congr_left hkeys, List.map_const'] at hnodup
  exact List.nodup_replicate.mp hnodup

/-- Without any order there is one round. -/
theorem rounds_bare (hbare : ∀ x ∈ page, x.orderId = none) (hengine : engine.Conforms) :
    rounds engine page = .ok (numbered (groups page)) := by
  rw [rounds, hengine.single _ _ (groups_short hbare)]
  rfl

theorem right_of_bare (hbare : ∀ x ∈ page, x.orderId = none)
    (hone : ∀ x ∈ page, ∀ y ∈ page, book.orderOf x.id = book.orderOf y.id) (hengine : engine.Conforms) :
    ∃ shown, rounds engine page = .ok shown ∧ book.RoundsRight page shown := by
  refine ⟨_, rounds_bare hbare hengine, right_of_groups (.refl _) ?_ ?_⟩
  · intro x hx y hy
    rw [hbare x hx, hbare y hy, iff_true_left rfl]
    exact hone x hx y hy
  · have hlen := groups_short hbare
    cases hg : groups page with
    | nil => exact .nil
    | cons group rest =>
      rw [hg, List.length_cons] at hlen
      rw [List.eq_nil_of_length_eq_zero (by omega : rest.length = 0)]
      exact List.pairwise_singleton _ _

/-- An item without an order beside one with an order: some engine asks for its time. -/
theorem mixed_raises (hpage : ∀ x ∈ page, Placed book x) (hx : x ∈ page) (hy : y ∈ page)
    (hbare : x.orderId = none) (horder : y.orderId ≠ none) :
    ∃ engine : SortEngine OrderGroup String, engine.Conforms ∧ ∃ e, rounds engine page = .error e := by
  obtain ⟨group, hg, hxg⟩ := exists_group hx
  obtain ⟨other, ho, hyo⟩ := exists_group hy
  have hne : group ≠ other := by
    rintro rfl
    exact horder ((ho.keyed hyo).trans ((hg.keyed hxg).symm.trans hbare))
  have hat : group.at_ = none := by
    rw [hg.at_eq hpage hxg]
    rcases hpage x hx with ⟨-, hat⟩ | ⟨hox, -⟩
    · exact hat
    · rw [hbare] at hox
      cases hox
  have hraises : ∀ b : OrderGroup, ∃ e, localeCompare group.at_ b.at_ = .error e := by
    intro b
    exact ⟨_, by rw [hat]; rfl⟩
  have hlen : 2 ≤ (groups page).length := by
    by_contra hshort
    have hmem := mem_groups.mpr hg
    have hmem' := mem_groups.mpr ho
    cases hgs : groups page with
    | nil => simp [hgs] at hmem
    | cons first rest =>
      rw [hgs, List.length_cons] at hshort
      rw [hgs, List.eq_nil_of_length_eq_zero (by omega : rest.length = 0)] at hmem hmem'
      exact hne ((List.mem_singleton.mp hmem).trans (List.mem_singleton.mp hmem').symm)
  obtain ⟨engine, hconforms, e, he⟩ := SortEngine.exists_raises
    (fun a b => localeCompare a.at_ b.at_) hraises (mem_groups.mpr hg) hlen
  exact ⟨engine, hconforms, e, by rw [rounds, he]; rfl⟩

/-- Of two members of a list one stands before the other. -/
theorem pairwise_either {α : Type} {R : α → α → Prop} {l : List α} {a b : α} (h : l.Pairwise R) (ha : a ∈ l)
    (hb : b ∈ l) (hne : a ≠ b) : R a b ∨ R b a := by
  have hsym : Std.Symm fun a b => R a b ∨ R b a := ⟨fun _ _ h => h.symm⟩
  have heither : l.Pairwise fun a b => R a b ∨ R b a := h.imp fun hab => .inl hab
  exact heither.forall ha hb hne

/-- Two times that are misread put two orders in the wrong order. -/
theorem not_right_of_misread (hpage : ∀ x ∈ page, Placed book x) (hall : ∀ x ∈ page, x.orderId ≠ none)
    (hx : x ∈ page) (hy : y ∈ page) (hmis : Misread (book.requestedAt x) (book.requestedAt y))
    (hengine : engine.Conforms) : ¬ ∃ shown, rounds engine page = .ok shown ∧ book.RoundsRight page shown := by
  rintro ⟨shown, hshown, hright⟩
  obtain ⟨sorted, hrounds, hperm, hsorted⟩ := rounds_complete hpage hall hengine
  obtain rfl : numbered sorted = shown := Except.ok.inj (hrounds.symm.trans hshown)
  obtain ⟨hlt, hrank⟩ := hmis.wrong
  obtain ⟨gx, hgx, hxg⟩ := exists_group hx
  obtain ⟨gy, hgy, hyg⟩ := exists_group hy
  have hne : gx ≠ gy := by
    rintro rfl
    have hsame := (hgx.at_order hpage hall hxg).symm.trans (hgx.at_order hpage hall hyg)
    rw [Option.some.inj hsame] at hlt
    exact lt_irrefl _ hlt
  have htimes : sorted.Pairwise (NotLater book) := by
    rw [← numbered_groups sorted, List.pairwise_map]
    exact hright.earliest
  have hboth : sorted.Pairwise fun a b => rankSign a b ≤ 0 ∧ NotLater book a b := hsorted.and htimes
  have hx' := hperm.mem_iff.mpr (mem_groups.mpr hgx)
  have hy' := hperm.mem_iff.mpr (mem_groups.mpr hgy)
  rcases pairwise_either hboth hx' hy' hne with ⟨hle, -⟩ | ⟨-, z, hz, hlater⟩
  · rw [rankSign_le, hgx.at_order hpage hall hxg, hgy.at_order hpage hall hyg] at hle
    exact absurd hle (not_le.mpr hrank)
  · have hzy := (hgy.at_order hpage hall hz).symm.trans (hgy.at_order hpage hall hyg)
    have hle := hlater x hxg
    rw [Option.some.inj hzy] at hle
    exact absurd hle (not_le.mpr hlt)

/-- Whatever the sort compares, the panel shows the orders of the page exactly if it has
been told them, or there is one. -/
theorem rounds_shown {rows : List OrderItem} {steps : List PageStep} (hrows : ∀ i ∈ rows, book.Row i)
    (hsteps : ∀ s ∈ steps, book.Tells s) :
    (∀ engine : SortEngine OrderGroup String, engine.Conforms →
      ∃ shown, rounds engine (reached rows steps) = .ok shown ∧ book.RoundsRight (reached rows steps) shown) ↔
      book.Told (reached rows steps) := by
  have hpage := placed_reached hrows hsteps
  constructor
  · intro h
    have hforward := SortEngine.insertion_conforms (α := OrderGroup) (ε := String) true
    by_cases hall : ∀ x ∈ reached rows steps, x.orderId ≠ none
    · refine .inl ⟨hall, fun x hx y hy hmis => ?_⟩
      exact not_right_of_misread hpage hall hx hy hmis hforward (h _ hforward)
    · have hbare : ∀ y ∈ reached rows steps, y.orderId = none := by
        simp only [not_forall, not_not] at hall
        obtain ⟨x, hx, hnone⟩ := hall
        intro y hy
        by_contra horder
        obtain ⟨engine, hconforms, e, he⟩ := mixed_raises hpage hx hy hnone horder
        obtain ⟨shown, hshown, -⟩ := h engine hconforms
        rw [he] at hshown
        cases hshown
      refine .inr ⟨hbare, fun x hx y hy => ?_⟩
      obtain ⟨shown, hshown, hright⟩ := h _ hforward
      obtain rfl : numbered (groups _) = shown := Except.ok.inj ((rounds_bare hbare hforward).symm.trans hshown)
      obtain ⟨round, ⟨hround, hxr⟩, -⟩ := hright.once x hx
      have hgroup : IsGroup (reached rows steps) round.toOrderGroup := by
        rw [← mem_groups, ← numbered_groups (groups _)]
        exact List.mem_map_of_mem hround
      have hkey : y.orderId = round.orderId := by
        rw [hbare y hy, ← hgroup.keyed hxr, hbare x hx]
      exact (hright.together x hx y hy).mp ⟨round, hround, hxr, hgroup.mem_of_key hy hkey⟩
  · rintro (⟨hall, hread⟩ | ⟨hbare, hone⟩) engine hengine
    · exact right_of_complete hpage hall hread hengine
    · exact right_of_bare hbare hone hengine

/-- The order of the dish, and a later one that comes from another phone. -/
def cafeBook : OrderBook where
  orderOf id := if id = 22 then 21 else 11
  placedAt orderId := if orderId = 21 then 60000000 else 0

def cafeSecond : RealtimeEvent := .orderCreated 21 10 [⟨22, "Trà đá", 2, .pending⟩]

theorem cafeDish_row : ∀ i ∈ [cafeDish], cafeBook.Row i := by
  rintro i hi
  rw [List.mem_singleton.mp hi]
  exact ⟨rfl, rfl⟩

theorem cafeSecond_tells : ∀ s ∈ [PageStep.message 60000000 cafeSecond], cafeBook.Tells s := by
  rintro s hs
  rw [List.mem_singleton.mp hs]
  rintro i hi
  rw [List.mem_singleton.mp hi]
  rfl

def cafeTea : OrderItem :=
  ⟨22, 1, 21, 4, "Trà đá", 500000, 5, 2, none, .pending, 60000000, none, none, none, none, none⟩

/-- The cook starts the dish that the page has loaded; the guest orders tea, whose message comes
before the answer. -/
def cafeSteps : List PageStep :=
  [.message 30000000 (.itemUpdated 12 .cooking 11), .message 60000000 cafeSecond, .answer 21 [cafeTea]]

theorem cafeSteps_tell : ∀ s ∈ cafeSteps, cafeBook.Tells s := by
  rintro s hs
  simp only [cafeSteps, List.mem_cons, List.not_mem_nil, or_false] at hs
  rcases hs with rfl | rfl | rfl
  · trivial
  · exact cafeSecond_tells _ (List.mem_singleton_self _)
  · rintro i hi
    rw [List.mem_singleton.mp hi]
    exact ⟨rfl, rfl, rfl⟩

/-- The page has two orders, and has been told both. -/
theorem rounds_shown_cafe : (reached [cafeDish] cafeSteps).map SessionItem.orderId = [some 11, some 21] ∧
    ∀ engine : SortEngine OrderGroup String, engine.Conforms → ∃ shown,
      rounds engine (reached [cafeDish] cafeSteps) = .ok shown ∧ cafeBook.RoundsRight (reached [cafeDish] cafeSteps) shown := by
  refine ⟨rfl, (rounds_shown cafeDish_row cafeSteps_tell).mpr (.inl ⟨by decide, ?_⟩)⟩
  unfold OrderBook.Misread
  decide

/-- The message of the second order leaves the page with an item that has no time; an
engine that compares the later element with the earlier one asks for it. -/
theorem rounds_shown_fails : ¬ ∀ (engine : SortEngine OrderGroup String) (book : OrderBook) (rows : List OrderItem)
    (steps : List PageStep), engine.Conforms → (∀ i ∈ rows, book.Row i) → (∀ s ∈ steps, book.Tells s) →
      ∃ shown, rounds engine (reached rows steps) = .ok shown ∧ book.RoundsRight (reached rows steps) shown := by
  intro h
  obtain ⟨shown, hshown, -⟩ := h (.insertion false) cafeBook [cafeDish] [.message 60000000 cafeSecond]
    (SortEngine.insertion_conforms false) cafeDish_row cafeSecond_tells
  have hraises : rounds (.insertion false) (reached [cafeDish] [.message 60000000 cafeSecond]) =
      .error "Cannot read properties of undefined (reading 'localeCompare')" := by
    rfl
  rw [hraises] at hshown
  cases hshown

end Rounds

end MenuPage

end QOrder
