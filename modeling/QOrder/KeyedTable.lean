import Mathlib.Data.List.Nodup
import Mathlib.Data.List.Lemmas

/-! Tables as lists of rows with a key. Laying one list of row versions over
another replaces rows by key and appends the rows with new keys. -/

namespace KeyedTable

class Keyed (V : Type) (K : outParam Type) where
  key : V → K

export Keyed (key)

variable {V K β : Type} [Keyed V K] [DecidableEq K]

def lookup (k : K) (rows : List V) : Option V := rows.find? (fun r => key r = k)

def overlay (rows ws : List V) : List V :=
  rows.map (fun r => (lookup (key r) ws).getD r) ++
    ws.filter (fun w => (lookup (key w) rows).isNone)

/-- The new versions of the rows an update changes. -/
def changed (p : V → Bool) (f : V → V) (rows : List V) : List V := (rows.filter p).map f

abbrev UniqueKeys (rows : List V) : Prop := (rows.map key).Nodup

omit [DecidableEq K] in
@[simp] theorem uniqueKeys_nil : UniqueKeys ([] : List V) := List.nodup_nil

omit [DecidableEq K] in
@[simp] theorem uniqueKeys_singleton (r : V) : UniqueKeys [r] := by simp [UniqueKeys]

@[simp] theorem lookup_nil (k : K) : lookup k ([] : List V) = none := rfl

theorem lookup_cons (k : K) (r : V) (rows : List V) :
    lookup k (r :: rows) = if key r = k then some r else lookup k rows := by
  by_cases h : key r = k <;> simp [lookup, h]

theorem lookup_singleton (k : K) (r : V) :
    lookup k [r] = if key r = k then some r else none := by
  simp [lookup_cons]

theorem mem_of_lookup {k : K} {r : V} {rows : List V} (h : lookup k rows = some r) :
    r ∈ rows := List.mem_of_find?_eq_some h

theorem key_of_lookup {k : K} {r : V} {rows : List V} (h : lookup k rows = some r) :
    key r = k := by simpa using List.find?_some h

theorem lookup_eq_none {k : K} {rows : List V} :
    lookup k rows = none ↔ ∀ r ∈ rows, key r ≠ k := by
  simp [lookup]

theorem lookup_of_mem {r : V} {rows : List V} (hn : UniqueKeys rows) (hr : r ∈ rows) :
    lookup (key r) rows = some r := by
  induction rows with
  | nil => cases hr
  | cons x rows ih =>
    have hx := List.nodup_cons.mp (by simpa only [UniqueKeys, List.map_cons] using hn)
    rw [lookup_cons]
    rcases List.mem_cons.mp hr with rfl | hr
    · simp
    · rw [if_neg, ih hx.2 hr]
      intro he
      exact hx.1 (he ▸ List.mem_map_of_mem hr)

theorem mem_iff_lookup {r : V} {rows : List V} (hn : UniqueKeys rows) :
    r ∈ rows ↔ lookup (key r) rows = some r :=
  ⟨lookup_of_mem hn, mem_of_lookup⟩

theorem eq_of_key_eq {r r' : V} {rows : List V} (hn : UniqueKeys rows) (hr : r ∈ rows)
    (hr' : r' ∈ rows) (h : key r = key r') : r = r' := by
  have he := lookup_of_mem hn hr
  rw [h, lookup_of_mem hn hr'] at he
  exact (Option.some.inj he).symm

theorem lookup_append (k : K) (rows ws : List V) :
    lookup k (rows ++ ws) = (lookup k rows).or (lookup k ws) := by
  simp [lookup, List.find?_append]

theorem key_getD_lookup (r : V) (ws : List V) : key ((lookup (key r) ws).getD r) = key r := by
  cases h : lookup (key r) ws with
  | none => rfl
  | some w => exact key_of_lookup h

theorem lookup_map_getD (k : K) (rows ws : List V) :
    lookup k (rows.map fun r => (lookup (key r) ws).getD r) =
      (lookup k rows).map fun r => (lookup k ws).getD r := by
  induction rows with
  | nil => rfl
  | cons r rows ih =>
    by_cases h : key r = k
    · subst h
      simp [lookup_cons, key_getD_lookup]
    · simp [lookup_cons, key_getD_lookup, h, ih]

theorem lookup_filter_new (k : K) (rows ws : List V) :
    lookup k (ws.filter fun w => (lookup (key w) rows).isNone) =
      if (lookup k rows).isNone then lookup k ws else none := by
  induction ws with
  | nil => simp
  | cons w ws ih =>
    by_cases h : key w = k
    · subst h
      cases hr : lookup (key w) rows with
      | none => simp [hr, lookup_cons]
      | some r => simp [hr, ih]
    · cases hr : lookup (key w) rows with
      | none => simp [hr, lookup_cons, h, ih]
      | some r => simp [hr, lookup_cons, h, ih]

@[simp] theorem lookup_overlay (k : K) (rows ws : List V) :
    lookup k (overlay rows ws) = (lookup k ws).or (lookup k rows) := by
  rw [overlay, lookup_append, lookup_map_getD, lookup_filter_new]
  cases lookup k rows <;> cases lookup k ws <;> simp

/-- A write of one row keeps every other row. -/
theorem lookup_overlay_one {k : K} {r r' w : V} {rows : List V}
    (hw : lookup (key w) rows = some r') (hr : lookup k rows = some r) :
    lookup k [w] = none ∨ r' = r ∧ lookup k (overlay rows [w]) = some w := by
  by_cases hk : key w = k
  · rw [hk, hr] at hw
    exact .inr ⟨(Option.some.inj hw).symm, by simp [lookup_singleton, hk]⟩
  · exact .inl (by simp [lookup_singleton, hk])

@[simp] theorem overlay_nil (rows : List V) : overlay rows [] = rows := by
  simp [overlay]

@[simp] theorem nil_overlay (ws : List V) : overlay [] ws = ws := by
  simp [overlay]

theorem uniqueKeys_overlay {rows ws : List V} (hr : UniqueKeys rows) (hw : UniqueKeys ws) :
    UniqueKeys (overlay rows ws) := by
  have hm : (rows.map fun r => (lookup (key r) ws).getD r).map key = rows.map key := by
    simp [List.map_map, Function.comp_def, key_getD_lookup]
  have hf : ((ws.filter fun w => (lookup (key w) rows).isNone).map key).Nodup :=
    hw.sublist (List.filter_sublist.map key)
  rw [UniqueKeys, overlay, List.map_append, hm, List.nodup_append]
  refine ⟨hr, hf, ?_⟩
  rintro k hk k' hk' rfl
  obtain ⟨w, hw', rfl⟩ := List.mem_map.mp hk'
  obtain ⟨r, hr', he⟩ := List.mem_map.mp hk
  have hnone := (List.mem_filter.mp hw').2
  rw [Option.isNone_iff_eq_none, lookup_eq_none] at hnone
  exact hnone r hr' he

theorem mem_overlay {x : V} {rows ws : List V} (hr : UniqueKeys rows) (hw : UniqueKeys ws) :
    x ∈ overlay rows ws ↔ x ∈ ws ∨ x ∈ rows ∧ lookup (key x) ws = none := by
  rw [mem_iff_lookup (uniqueKeys_overlay hr hw), lookup_overlay, mem_iff_lookup hw,
    mem_iff_lookup hr]
  cases lookup (key x) ws <;> simp

theorem mem_overlay_one {rows : List V} {x row : V} (hk : UniqueKeys rows) :
    x ∈ overlay rows [row] ↔ x = row ∨ x ∈ rows ∧ key x ≠ key row := by
  rw [mem_overlay hk (uniqueKeys_singleton row), List.mem_singleton, lookup_singleton]
  refine or_congr Iff.rfl (and_congr Iff.rfl ?_)
  by_cases h : key row = key x
  · simp [h]
  · simp [h, Ne.symm h]

theorem mem_of_mem_overlay {x : V} {rows ws : List V} (h : x ∈ overlay rows ws) :
    x ∈ ws ∨ x ∈ rows := by
  rcases List.mem_append.mp h with h | h
  · obtain ⟨r, hr, rfl⟩ := List.mem_map.mp h
    cases hl : lookup (key r) ws with
    | none => exact .inr (by simpa [hl] using hr)
    | some w => exact .inl (by simpa [hl] using mem_of_lookup hl)
  · exact .inl (List.mem_of_mem_filter h)

theorem overlay_new {rows ws : List V} (h : ∀ w ∈ ws, lookup (key w) rows = none) :
    overlay rows ws = rows ++ ws := by
  have hm : rows.map (fun r => (lookup (key r) ws).getD r) = rows := by
    refine (List.map_congr_left fun r hr => ?_).trans (List.map_id rows)
    have hn : lookup (key r) ws = none := by
      rw [lookup_eq_none]
      intro w hw he
      exact lookup_eq_none.mp (h w hw) r hr he.symm
    simp [hn]
  rw [overlay, hm, List.filter_eq_self.mpr]
  intro w hw
  simp [h w hw]

theorem lookup_changed {p : V → Bool} {f : V → V} (hf : ∀ r, key (f r) = key r) (k : K)
    {rows : List V} (hn : UniqueKeys rows) :
    lookup k (changed p f rows) = ((lookup k rows).filter p).map f := by
  induction rows with
  | nil => rfl
  | cons r rows ih =>
    have hx := List.nodup_cons.mp (by simpa only [UniqueKeys, List.map_cons] using hn)
    have hi := ih hx.2
    by_cases hk : key r = k
    · subst hk
      have hnone : lookup (key r) rows = none := by
        rw [lookup_eq_none]
        intro x hx' he
        exact hx.1 (he ▸ List.mem_map_of_mem hx')
      cases hp : p r with
      | true => simp [changed, hp, lookup_cons, hf]
      | false =>
        rw [hnone] at hi
        simpa [changed, hp, lookup_cons, Option.filter_some] using hi
    · cases hp : p r with
      | true =>
        have := hi
        simp only [changed] at this
        simp [changed, hp, lookup_cons, hf, hk, this]
      | false => simpa [changed, hp, lookup_cons, hk] using hi

theorem overlay_changed {p : V → Bool} {f : V → V} (hf : ∀ r, key (f r) = key r)
    {rows : List V} (hn : UniqueKeys rows) :
    overlay rows (changed p f rows) = rows.map fun r => if p r then f r else r := by
  have hnew : (changed p f rows).filter (fun w => (lookup (key w) rows).isNone) = [] := by
    rw [List.filter_eq_nil_iff]
    intro w hw
    obtain ⟨r, hr, rfl⟩ := List.mem_map.mp hw
    have hs := lookup_of_mem hn (List.mem_of_mem_filter hr)
    simp [hf, hs]
  rw [overlay, hnew, List.append_nil]
  refine List.map_congr_left fun r hr => ?_
  rw [lookup_changed hf _ hn, lookup_of_mem hn hr]
  cases hp : p r <;> simp [Option.filter_some, hp]

theorem mem_changed {p : V → Bool} {f : V → V} {rows : List V} {w : V} :
    w ∈ changed p f rows ↔ ∃ r ∈ rows, p r = true ∧ f r = w := by
  simp [changed, and_assoc]

omit [DecidableEq K] in
theorem uniqueKeys_changed {p : V → Bool} {f : V → V} (hf : ∀ r, key (f r) = key r)
    {rows : List V} (hn : UniqueKeys rows) : UniqueKeys (changed p f rows) := by
  have he : (changed p f rows).map key = (rows.filter p).map key := by
    simp [changed, Function.comp_def, hf]
  rw [UniqueKeys, he]
  exact hn.sublist (List.filter_sublist.map key)

theorem changed_eq_nil {p : V → Bool} {f : V → V} {k : K} {rows : List V}
    (hp : ∀ r, p r = true → key r = k) (hn : UniqueKeys rows)
    (h : ∀ r, lookup k rows = some r → p r = false) : changed p f rows = [] := by
  rw [changed, List.map_eq_nil_iff, List.filter_eq_nil_iff]
  intro r hr hpr
  have hl := lookup_of_mem hn hr
  rw [hp r hpr] at hl
  simp [h r hl] at hpr

theorem eq_singleton_of_forall {α : Type} {r : α} {l : List α} (hn : l.Nodup)
    (h : ∀ x ∈ l, x = r) (hr : r ∈ l) : l = [r] := by
  match l with
  | [] => cases hr
  | [a] => rw [h a List.mem_cons_self]
  | a :: b :: l =>
    have ha := h a List.mem_cons_self
    have hb := h b (List.mem_cons_of_mem _ List.mem_cons_self)
    simp [ha, hb] at hn

theorem changed_eq_singleton {p : V → Bool} {f : V → V} {k : K} {r : V} {rows : List V}
    (hp : ∀ r, p r = true → key r = k) (hn : UniqueKeys rows) (hl : lookup k rows = some r)
    (hr : p r = true) : changed p f rows = [f r] := by
  have hm : ∀ x ∈ rows.filter p, x = r := by
    intro x hx
    obtain ⟨hx, hpx⟩ := List.mem_filter.mp hx
    exact eq_of_key_eq hn hx (mem_of_lookup hl) ((hp x hpx).trans (hp r hr).symm)
  have hmem : r ∈ rows.filter p := List.mem_filter.mpr ⟨mem_of_lookup hl, hr⟩
  have hnd : (rows.filter p).Nodup := List.Nodup.filter _ (List.Nodup.of_map _ hn)
  rw [changed, eq_singleton_of_forall hnd hm hmem, List.map_singleton]

/-- An update of the row with a given key changes that row or nothing. -/
theorem changed_cases {p : V → Bool} {f : V → V} {k : K} {rows : List V}
    (hp : ∀ r, p r = true → key r = k) (hn : UniqueKeys rows) :
    changed p f rows = [] ∨
      ∃ r, lookup k rows = some r ∧ p r = true ∧ changed p f rows = [f r] := by
  by_cases h : ∀ r, lookup k rows = some r → p r = false
  · exact .inl (changed_eq_nil hp hn h)
  · push Not at h
    obtain ⟨r, hl, hr⟩ := h
    have hr : p r = true := by simpa using hr
    exact .inr ⟨r, hl, hr, changed_eq_singleton hp hn hl hr⟩

theorem overlay_same_key {r w : V} (h : key w = key r) : overlay [r] [w] = [w] := by
  simp [overlay, lookup_cons, h]

/-- Changing one row that is in the table. -/
theorem overlay_row {r w : V} {rows : List V} (hl : lookup (key r) rows = some r) (h : key w = key r) :
    overlay rows [w] = rows.map fun x => if key x = key r then w else x := by
  have hnone : [w].filter (fun w => (lookup (key w) rows).isNone) = [] := by
    simp [h, hl]
  rw [overlay, hnone, List.append_nil]
  refine List.map_congr_left fun x _ => ?_
  by_cases hx : key x = key r
  · simp [lookup_singleton, h, hx]
  · simp [lookup_singleton, h, hx, Ne.symm hx]

theorem overlay_self {r : V} {rows : List V} (hn : UniqueKeys rows) (hl : lookup (key r) rows = some r) :
    overlay rows [r] = rows := by
  refine (overlay_row hl rfl).trans ((List.map_congr_left fun x hx => ?_).trans rows.map_id)
  split
  · rename_i he
    exact (eq_of_key_eq hn hx (mem_of_lookup hl) he).symm
  · rfl

/-- Rows selected by a test that no changed row passes, before or after its change,
are the same in both versions of the table. -/
theorem filter_overlay {P P' : V → Bool} {rows ws : List V}
    (hkeep : ∀ r ∈ rows, lookup (key r) ws = none → P' r = P r)
    (hold : ∀ r ∈ rows, lookup (key r) ws ≠ none → P r = false)
    (hnew : ∀ w ∈ ws, P' w = false) : (overlay rows ws).filter P' = rows.filter P := by
  have hf : (ws.filter fun w => (lookup (key w) rows).isNone).filter P' = [] := by
    rw [List.filter_eq_nil_iff]
    intro w hw
    simp [hnew w (List.mem_of_mem_filter hw)]
  rw [overlay, List.filter_append, hf, List.append_nil]
  clear hf
  induction rows with
  | nil => rfl
  | cons r rows ih =>
    have hi := ih (fun x hx => hkeep x (List.mem_cons_of_mem _ hx))
      (fun x hx => hold x (List.mem_cons_of_mem _ hx))
    cases hl : lookup (key r) ws with
    | none =>
      simp [List.filter_cons, hl, hkeep r List.mem_cons_self hl, hi]
    | some w =>
      have h₁ := hnew w (mem_of_lookup hl)
      have h₂ := hold r List.mem_cons_self (by simp [hl])
      simp [hl, h₁, h₂, hi]

end KeyedTable
