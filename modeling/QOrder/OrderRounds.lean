import Mathlib.Data.List.Induction
import QOrder.MenuPage
import QOrder.SortEngine

/-! The rounds in which the panel of the customer's orders shows the items of the page. -/

namespace QOrder

namespace MenuPage

/-- The place of an instant's ISO text among such texts. Without a fraction of a second it
ends in a `Z` where the others have a point, which comes before. -/
def isoRank (t : Int) : Int :=
  t / 1000000 * 1000001 + if t % 1000000 = 0 then 1000000 else t % 1000000

/-- `<`, which is false with an undefined operand. -/
def isoBefore : Option Timestamp → Option Timestamp → Bool
  | some s, some t => decide (isoRank s < isoRank t)
  | _, _ => false

/-- An undefined argument is compared as the text `undefined`, after every digit. -/
def localeCompare : Option Timestamp → Option Timestamp → Except String Int
  | none, _ => .error "Cannot read properties of undefined (reading 'localeCompare')"
  | some _, none => .ok (-1)
  | some s, some t => .ok (if isoRank s < isoRank t then -1 else if isoRank t < isoRank s then 1 else 0)

structure OrderGroup where
  orderId : Option Uuid
  items : Page
  at_ : Option Timestamp
  deriving DecidableEq, Repr

structure OrderRound extends OrderGroup where
  number : Nat
  deriving DecidableEq, Repr

/-- A bucket keeps its place in the map. -/
def addToBucket (byOrder : List (Option Uuid × Page)) (item : SessionItem) : List (Option Uuid × Page) :=
  if item.orderId ∈ byOrder.map Prod.fst then
    byOrder.map fun bucket => if bucket.1 = item.orderId then (bucket.1, bucket.2 ++ [item]) else bucket
  else byOrder ++ [(item.orderId, [item])]

def byOrder (items : Page) : List (Option Uuid × Page) := items.foldl addToBucket []

def earliestOf (roundItems : Page) : Option Timestamp :=
  roundItems.foldl (fun earliest i => if isoBefore i.requestedAt earliest then i.requestedAt else earliest)
    (roundItems.head?.bind SessionItem.requestedAt)

def groups (items : Page) : List OrderGroup :=
  (byOrder items).map fun bucket => ⟨bucket.1, bucket.2, earliestOf bucket.2⟩

def numbered (sorted : List OrderGroup) : List OrderRound :=
  sorted.mapIdx fun index round => { round with number := index + 1 }

def rounds (engine : SortEngine OrderGroup String) (items : Page) : Except String (List OrderRound) :=
  (engine.sort (fun a b => localeCompare a.at_ b.at_) (groups items)).map numbered

/-- What reaches the page: a message, or the answer to an order of its own. -/
inductive PageStep
  | message (now : Timestamp) (event : RealtimeEvent)
  | answer (orderId : Uuid) (items : List OrderItem)

def step (page : Page) : PageStep → Page
  | .message now event => handleWsEvent now page event
  | .answer orderId items => handleSubmitOrder orderId items page

/-- The page after a snapshot and the steps that follow it. -/
def reached (rows : List OrderItem) (steps : List PageStep) : Page := steps.foldl step (rows.map ofRow)

/-- The order of every item, and the instant at which all of an order was requested. -/
structure OrderBook where
  orderOf : Uuid → Uuid
  placedAt : Uuid → Timestamp

namespace OrderBook

variable (book : OrderBook)

def Row (i : OrderItem) : Prop := i.orderId = book.orderOf i.id ∧ i.requestedAt = book.placedAt i.orderId

/-- The step is about these orders. -/
def Tells : PageStep → Prop
  | .message _ (.orderCreated orderId _ items) => ∀ i ∈ items, book.orderOf i.id = orderId
  | .message _ _ => True
  | .answer orderId items => ∀ i ∈ items, i.orderId = orderId ∧ book.Row i

def requestedAt (x : SessionItem) : Timestamp := book.placedAt (book.orderOf x.id)

/-- The rounds are the orders of the page, by the times at which they were requested. -/
structure RoundsRight (page : Page) (rounds : List OrderRound) : Prop where
  partition : (rounds.flatMap fun round => round.items).Perm page
  once : ∀ x ∈ page, ∃! round, round ∈ rounds ∧ x ∈ round.items
  together : ∀ x ∈ page, ∀ y ∈ page,
    (∃ round ∈ rounds, x ∈ round.items ∧ y ∈ round.items) ↔ book.orderOf x.id = book.orderOf y.id
  numbers : rounds.map OrderRound.number = List.range' 1 rounds.length
  earliest : rounds.Pairwise fun round later =>
    ∃ x ∈ round.items, ∀ y ∈ later.items, book.requestedAt x ≤ book.requestedAt y

/-- The texts of the two instants are in the other order: they are in one second, and only
the earlier one has no fraction. -/
def Misread (s t : Int) : Prop := s / 1000000 = t / 1000000 ∧ s % 1000000 = 0 ∧ t % 1000000 ≠ 0

/-- Every item has come with its order, and no two times are misread; or none has, and all
are of one order. -/
def Told (page : Page) : Prop :=
  (∀ x ∈ page, x.orderId ≠ none) ∧ (∀ x ∈ page, ∀ y ∈ page, ¬ Misread (book.requestedAt x) (book.requestedAt y)) ∨
    (∀ x ∈ page, x.orderId = none) ∧ ∀ x ∈ page, ∀ y ∈ page, book.orderOf x.id = book.orderOf y.id

end OrderBook

theorem misread_of_lt {s t : Int} (hlt : s < t) (hrank : isoRank t ≤ isoRank s) : OrderBook.Misread s t := by
  unfold OrderBook.Misread
  unfold isoRank at hrank
  split at hrank <;> split at hrank <;> omega

theorem OrderBook.Misread.wrong {s t : Int} (h : OrderBook.Misread s t) : s < t ∧ isoRank t < isoRank s := by
  obtain ⟨hsecond, hs, ht⟩ := h
  unfold isoRank
  rw [if_pos hs, if_neg ht]
  omega

section Buckets

variable {page : Page} {buckets : List (Option Uuid × Page)} {x : SessionItem}

/-- The buckets are the classes of the page by order. -/
structure Buckets (page : Page) (buckets : List (Option Uuid × Page)) : Prop where
  keys : (buckets.map Prod.fst).Nodup
  perm : (buckets.flatMap Prod.snd).Perm page
  keyed : ∀ bucket ∈ buckets, ∀ x ∈ bucket.2, x.orderId = bucket.1
  nonempty : ∀ bucket ∈ buckets, bucket.2 ≠ []

theorem Buckets.add (h : Buckets page buckets) (x : SessionItem) : Buckets (page ++ [x]) (addToBucket buckets x) := by
  unfold addToBucket
  by_cases hc : x.orderId ∈ buckets.map Prod.fst
  · rw [if_pos hc]
    obtain ⟨bucket, hmem, hkey⟩ := List.mem_map.mp hc
    obtain ⟨pre, post, rfl⟩ := List.append_of_mem hmem
    have hkeys := h.keys
    rw [List.map_append, List.map_cons, List.nodup_append] at hkeys
    obtain ⟨-, hpost, hpre⟩ := hkeys
    have hpre' : ∀ b ∈ pre, b.1 ≠ x.orderId := by
      intro b hb he
      exact hpre _ (List.mem_map_of_mem hb) _ List.mem_cons_self (he.trans hkey.symm)
    have hpost' : ∀ b ∈ post, b.1 ≠ x.orderId := by
      intro b hb he
      refine (List.nodup_cons.mp hpost).1 ?_
      rw [hkey, ← he]
      exact List.mem_map_of_mem hb
    rw [List.map_append, List.map_cons, if_pos hkey, List.map_congr_left fun b hb => if_neg (hpre' b hb),
      List.map_congr_left fun b hb => if_neg (hpost' b hb), List.map_id', List.map_id']
    refine ⟨?_, ?_, ?_, ?_⟩
    · have hk := h.keys
      rw [List.map_append, List.map_cons] at hk ⊢
      exact hk
    · have hp := h.perm
      rw [List.flatMap_append, List.flatMap_cons] at hp ⊢
      refine List.Perm.trans ?_ (hp.append_right [x])
      rw [List.append_assoc, List.append_assoc, List.append_assoc]
      exact List.Perm.append_left _ (List.Perm.append_left _ List.perm_append_comm)
    · intro b hb y hy
      rcases List.mem_append.mp hb with hb | hb
      · exact h.keyed b (List.mem_append_left _ hb) y hy
      · rcases List.mem_cons.mp hb with rfl | hb
        · rcases List.mem_append.mp hy with hy | hy
          · exact h.keyed bucket hmem y hy
          · rw [List.mem_singleton.mp hy, hkey]
        · exact h.keyed b (List.mem_append_right _ (List.mem_cons_of_mem _ hb)) y hy
    · intro b hb
      rcases List.mem_append.mp hb with hb | hb
      · exact h.nonempty b (List.mem_append_left _ hb)
      · rcases List.mem_cons.mp hb with rfl | hb
        · simp
        · exact h.nonempty b (List.mem_append_right _ (List.mem_cons_of_mem _ hb))
  · rw [if_neg hc]
    refine ⟨?_, ?_, ?_, ?_⟩
    · rw [List.map_append]
      refine List.nodup_append.mpr ⟨h.keys, List.nodup_singleton _, ?_⟩
      rintro a ha b hb rfl
      obtain rfl := List.mem_singleton.mp hb
      exact hc ha
    · rw [List.flatMap_append]
      simpa using h.perm.append_right [x]
    · intro b hb y hy
      rcases List.mem_append.mp hb with hb | hb
      · exact h.keyed b hb y hy
      · obtain rfl := List.mem_singleton.mp hb
        rw [List.mem_singleton.mp hy]
    · intro b hb
      rcases List.mem_append.mp hb with hb | hb
      · exact h.nonempty b hb
      · obtain rfl := List.mem_singleton.mp hb
        simp

theorem buckets_byOrder (page : Page) : Buckets page (byOrder page) := by
  induction page using List.reverseRecOn with
  | nil => exact ⟨List.nodup_nil, .refl _, by simp [byOrder], by simp [byOrder]⟩
  | append_singleton page x ih =>
    rw [byOrder, List.foldl_append]
    exact ih.add x

end Buckets

end MenuPage

end QOrder
