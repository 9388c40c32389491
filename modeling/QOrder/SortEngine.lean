import Mathlib.Data.List.Sort

/-! Sorting by a comparator that may raise. Which elements are compared, and in which order,
is up to the engine. -/

structure SortEngine (α ε : Type) where
  sort : (α → α → Except ε Int) → List α → Except ε (List α)

namespace SortEngine

variable {α ε : Type}

/-- The signs of a consistent comparator are those of a total order. -/
structure Consistent (c : α → α → Int) : Prop where
  antisymm : ∀ a b, 0 < c a b ↔ c b a < 0
  trans : ∀ a b d, c a b ≤ 0 → c b d ≤ 0 → c a d ≤ 0

/-- What is promised of every engine: a single element needs no comparison, and what a
consistent comparator without exceptions sorts is sorted. -/
structure Conforms (engine : SortEngine α ε) : Prop where
  single : ∀ compare l, l.length ≤ 1 → engine.sort compare l = .ok l
  sorts : ∀ compare (c : α → α → Int) l, (∀ a ∈ l, ∀ b ∈ l, compare a b = .ok (c a b)) → Consistent c →
    ∃ l', engine.sort compare l = .ok l' ∧ l'.Perm l ∧ l'.Pairwise fun a b => c a b ≤ 0

section Insertion

variable (forward : Bool) (compare : α → α → Except ε Int)

/-- Whether `a` may stand before `b`, asked in one of the two directions. -/
def ask (a b : α) : Except ε Bool :=
  if forward then (compare a b).map fun c => decide (c ≤ 0) else (compare b a).map fun c => decide (0 ≤ c)

def insertM (a : α) : List α → Except ε (List α)
  | [] => .ok [a]
  | b :: l => do
    if ← ask forward compare a b then return a :: b :: l
    else return b :: (← insertM a l)

def insertionSortM : List α → Except ε (List α)
  | [] => .ok []
  | a :: l => do insertM forward compare a (← insertionSortM l)

/-- Insertion sort, which compares the new element with those of the sorted part or these
with the new element. -/
def insertion (forward : Bool) : SortEngine α ε := ⟨insertionSortM forward⟩

variable {forward compare} {c : α → α → Int} {a b : α} {l l' : List α} {e : ε}

theorem Consistent.total (hc : Consistent c) (a b : α) : c a b ≤ 0 ∨ c b a ≤ 0 := by
  have hswap := hc.antisymm a b
  omega

theorem ask_eq (hc : Consistent c) (hab : compare a b = .ok (c a b)) (hba : compare b a = .ok (c b a)) :
    ask forward compare a b = .ok (decide (c a b ≤ 0)) := by
  have hswap := hc.antisymm a b
  cases forward with
  | true =>
    rw [ask, if_pos rfl, hab]
    rfl
  | false =>
    have hle : 0 ≤ c b a ↔ c a b ≤ 0 := by
      omega
    simp [ask, hba, Except.map, hle]

theorem insertM_eq (hc : Consistent c) (h : ∀ b ∈ l, compare a b = .ok (c a b) ∧ compare b a = .ok (c b a)) :
    insertM forward compare a l = .ok (l.orderedInsert (fun a b => c a b ≤ 0) a) := by
  induction l with
  | nil => rfl
  | cons b l ih =>
    obtain ⟨hab, hba⟩ := h b List.mem_cons_self
    have htail := ih fun b hb => h b (List.mem_cons_of_mem _ hb)
    rw [insertM, ask_eq hc hab hba, List.orderedInsert_cons]
    by_cases hle : c a b ≤ 0
    · simp [hle, bind, Except.bind, pure, Except.pure]
    · simp [hle, bind, Except.bind, pure, Except.pure, htail]

theorem insertionSortM_eq (hc : Consistent c) (h : ∀ a ∈ l, ∀ b ∈ l, compare a b = .ok (c a b)) :
    insertionSortM forward compare l = .ok (l.insertionSort fun a b => c a b ≤ 0) := by
  induction l with
  | nil => rfl
  | cons a l ih =>
    have htail := ih fun x hx y hy => h x (List.mem_cons_of_mem _ hx) y (List.mem_cons_of_mem _ hy)
    rw [insertionSortM, htail, List.insertionSort_cons]
    refine insertM_eq hc fun b hb => ?_
    have hb' : b ∈ a :: l := List.mem_cons_of_mem _ ((List.mem_insertionSort _).mp hb)
    exact ⟨h a List.mem_cons_self b hb', h b hb' a List.mem_cons_self⟩

theorem insertion_conforms (forward : Bool) : Conforms (insertion forward : SortEngine α ε) := by
  constructor
  · intro compare l hl
    cases l with
    | nil => rfl
    | cons a l =>
      have hnil : l = [] := by
        cases l with
        | nil => rfl
        | cons b l => simp at hl
      subst hnil
      rfl
  · intro compare c l h hc
    have htotal : Std.Total (fun a b => c a b ≤ 0) := ⟨hc.total⟩
    have htrans : IsTrans α (fun a b => c a b ≤ 0) := ⟨hc.trans⟩
    exact ⟨_, insertionSortM_eq hc h, List.perm_insertionSort _ l, List.pairwise_insertionSort _ l⟩

end Insertion

section Exceptions

variable {compare : α → α → Except ε Int} {forward : Bool} {a b : α} {l l' : List α} {e : ε}

theorem insertM_length (h : insertM forward compare a l = .ok l') : l'.length = l.length + 1 := by
  induction l generalizing l' with
  | nil =>
    cases h
    rfl
  | cons b l ih =>
    rw [insertM] at h
    cases hask : ask forward compare a b with
    | error e =>
      rw [hask] at h
      cases h
    | ok before =>
      rw [hask] at h
      cases before with
      | true =>
        cases h
        rfl
      | false =>
        cases hrest : insertM forward compare a l with
        | error e =>
          simp [bind, Except.bind, hrest] at h
        | ok rest =>
          simp only [bind, Except.bind, hrest, Bool.false_eq_true, if_false, pure, Except.pure, Except.ok.injEq] at h
          rw [← h, List.length_cons, ih hrest, List.length_cons]

theorem insertionSortM_length (h : insertionSortM forward compare l = .ok l') : l'.length = l.length := by
  induction l generalizing l' with
  | nil =>
    cases h
    rfl
  | cons a l ih =>
    rw [insertionSortM] at h
    cases hrest : insertionSortM forward compare l with
    | error e =>
      rw [hrest] at h
      cases h
    | ok rest =>
      rw [hrest] at h
      rw [insertM_length h, ih hrest, List.length_cons]

/-- An exception in a tail of the list is one in the list. -/
theorem insertionSortM_raises (pre : List α) (h : ∃ e, insertionSortM forward compare l = .error e) :
    ∃ e, insertionSortM forward compare (pre ++ l) = .error e := by
  induction pre with
  | nil => exact h
  | cons a pre ih =>
    obtain ⟨e, he⟩ := ih
    exact ⟨e, by rw [List.cons_append, insertionSortM, he]; rfl⟩

/-- An element with which no comparison can begin raises, unless it is the last one. -/
theorem forward_raises (ha : ∀ b, ∃ e, compare a b = .error e) :
    ∃ e, insertionSortM true compare (l ++ a :: b :: l') = .error e := by
  refine insertionSortM_raises l ?_
  rw [insertionSortM]
  cases hrest : insertionSortM true compare (b :: l') with
  | error e => exact ⟨e, rfl⟩
  | ok rest =>
    have hlen := insertionSortM_length hrest
    cases rest with
    | nil => simp at hlen
    | cons x rest =>
      obtain ⟨e, he⟩ := ha x
      exact ⟨e, by simp [bind, Except.bind, insertM, ask, he, Except.map]⟩

/-- The last element, where it comes first in every comparison. -/
theorem backward_raises (ha : ∀ b, ∃ e, compare a b = .error e) :
    ∃ e, insertionSortM false compare (l ++ [b, a]) = .error e := by
  refine insertionSortM_raises l ?_
  obtain ⟨e, he⟩ := ha b
  exact ⟨e, by simp [bind, Except.bind, insertionSortM, insertM, ask, he, Except.map]⟩

variable (compare) in
/-- Some engine asks about the element first. -/
theorem exists_raises (ha : ∀ b, ∃ e, compare a b = .error e) (hmem : a ∈ l) (hlen : 2 ≤ l.length) :
    ∃ engine : SortEngine α ε, engine.Conforms ∧ ∃ e, engine.sort compare l = .error e := by
  obtain ⟨pre, post, rfl⟩ := List.append_of_mem hmem
  cases post with
  | cons b post => exact ⟨insertion true, insertion_conforms true, forward_raises ha⟩
  | nil =>
    rcases List.eq_nil_or_concat pre with rfl | ⟨pre, b, rfl⟩
    · simp at hlen
    · have happend : pre.concat b ++ [a] = pre ++ [b, a] := by
        simp
      refine ⟨insertion false, insertion_conforms false, ?_⟩
      rw [happend]
      exact backward_raises ha

end Exceptions

end SortEngine
