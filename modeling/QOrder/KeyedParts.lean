import QOrder.KeyedTable

/-! A part of a table: the rows whose keys are of a kind. Laying row versions over a table
lays their parts over its parts. -/

namespace KeyedTable

variable {V K : Type} [Keyed V K]

/-- The rows whose keys satisfy `p`. -/
def part (p : K → Bool) (rows : List V) : List V := rows.filter fun r => p (key r)

variable {p : K → Bool} {rows ws : List V} {q : V → Bool}

@[simp] theorem mem_part {r : V} : r ∈ part p rows ↔ r ∈ rows ∧ p (key r) = true := List.mem_filter

@[simp] theorem part_nil : part p ([] : List V) = [] := rfl

theorem part_eq_nil (h : ∀ r ∈ rows, p (key r) = false) : part p rows = [] := by
  rw [part, List.filter_eq_nil_iff]
  intro r hr
  simp [h r hr]

theorem lookup_part [DecidableEq K] {k : K} (h : p k = true) : lookup k (part p rows) = lookup k rows := by
  have hk : ∀ r : V, (p (key r) = true ∧ decide (key r = k) = true) = (key r = k) := by
    intro r
    by_cases hr : key r = k
    · simp [hr, h]
    · simp [hr]
  simp only [lookup, part, List.find?_filter, hk]

/-- Rows that a test selects from a part are those it selects from the table, if it
selects none outside of the part. -/
theorem filter_part (h : ∀ r ∈ rows, q r = true → p (key r) = true) :
    (part p rows).filter q = rows.filter q := by
  rw [part, List.filter_filter]
  refine List.filter_congr fun r hr => ?_
  have hq := h r hr
  cases hqr : q r with
  | false => simp
  | true => simp [hq hqr]

theorem any_part (h : ∀ r ∈ rows, q r = true → p (key r) = true) :
    (part p rows).any q = rows.any q := by
  rw [Bool.eq_iff_iff, List.any_eq_true, List.any_eq_true]
  constructor
  · rintro ⟨r, hr, hq⟩
    exact ⟨r, (mem_part.mp hr).1, hq⟩
  · rintro ⟨r, hr, hq⟩
    exact ⟨r, mem_part.mpr ⟨hr, h r hr hq⟩, hq⟩

theorem changed_part {f : V → V} (h : ∀ r ∈ rows, q r = true → p (key r) = true) :
    changed q f (part p rows) = changed q f rows := by
  rw [changed, filter_part h, changed]

theorem part_overlay [DecidableEq K] : part p (overlay rows ws) = overlay (part p rows) (part p ws) := by
  have hmap : part p (rows.map fun r => (lookup (key r) ws).getD r) =
      (part p rows).map fun r => (lookup (key r) (part p ws)).getD r := by
    rw [part, List.filter_map]
    have hf : ((fun r : V => p (key r)) ∘ fun r => (lookup (key r) ws).getD r) = fun r => p (key r) := by
      funext r
      simp only [Function.comp_apply, key_getD_lookup]
    rw [hf]
    refine List.map_congr_left fun r hr => ?_
    rw [lookup_part (mem_part.mp hr).2]
  have hnew : part p (ws.filter fun w => (lookup (key w) rows).isNone) =
      (part p ws).filter fun w => (lookup (key w) (part p rows)).isNone := by
    simp only [part, List.filter_filter]
    refine List.filter_congr fun w _ => ?_
    cases hw : p (key w) with
    | false => simp
    | true =>
      have hl : lookup (key w) (part p rows) = lookup (key w) rows := lookup_part hw
      simp only [part] at hl
      rw [hl, Bool.true_and, Bool.and_true]
  rw [overlay, overlay, ← hmap, ← hnew]
  exact List.filter_append ..

/-- A table is the same as another, up to the order of its rows, if it is part by part. -/
theorem perm_of_parts {ζ : Type} [DecidableEq V] [DecidableEq ζ] {label : K → ζ} {rows rows' : List V}
    (h : ∀ z, part (fun k => label k = z) rows = part (fun k => label k = z) rows') :
    rows.Perm rows' := by
  refine List.perm_iff_count.mpr fun r => ?_
  have hcount (l : List V) : List.count r (part (fun k => label k = label (key r)) l) = List.count r l :=
    List.count_filter (decide_eq_true rfl)
  rw [← hcount rows, h, hcount]

end KeyedTable
