import Mathlib.Data.List.Infix
import QOrder.ObjectStorage

/-! Public URLs and the keys they are parsed to. The parser looks for the first occurrence
of the bucket's name between slashes, wherever it stands. -/

namespace QOrder

section FirstOccurrence

variable {sep text base rest : List Char}

/-- The separator stands in the text, and no occurrence of it begins earlier. -/
theorem afterFirst_eq_some (h : sep ≠ []) : afterFirst sep text = some rest ↔
    ∃ base, text = base ++ (sep ++ rest) ∧ ¬ sep <:+: (base ++ sep).dropLast := by
  induction text with
  | nil =>
    simp [afterFirst, h]
  | cons c text ih =>
    by_cases hp : sep <+: c :: text
    · obtain ⟨t, ht⟩ := hp
      have hafter : afterFirst sep (c :: text) = some t := by
        rw [← ht]
        exact afterFirst_append h
      rw [hafter, Option.some.injEq]
      constructor
      · rintro rfl
        refine ⟨[], ht.symm, fun hi => ?_⟩
        have hlen := hi.length_le
        have hpos := List.length_pos_iff.mpr h
        simp only [List.nil_append, List.length_dropLast] at hlen
        omega
      · rintro ⟨base, he, hfirst⟩
        cases base with
        | nil => exact List.append_cancel_left (ht.trans he)
        | cons b base =>
          have hlong : sep <+: (b :: base ++ sep).dropLast := by
            have hsep : sep <+: b :: base ++ sep ++ rest := ⟨t, by rw [ht, he, List.append_assoc]⟩
            have hdrop : (b :: base ++ sep).dropLast <+: b :: base ++ sep ++ rest :=
              (List.dropLast_prefix _).trans (List.prefix_append ..)
            apply List.prefix_of_prefix_length_le hsep hdrop
            simp only [List.length_dropLast, List.length_append, List.length_cons]
            omega
          exact absurd hlong.isInfix hfirst
    · have hafter : afterFirst sep (c :: text) = afterFirst sep text := by
        rw [afterFirst, if_neg (mt List.isPrefixOf_iff_prefix.mp hp)]
      rw [hafter, ih]
      constructor
      · rintro ⟨base, rfl, hfirst⟩
        refine ⟨c :: base, rfl, fun hi => ?_⟩
        rw [List.cons_append, List.dropLast_cons_of_ne_nil (by simp [h])] at hi
        rcases List.infix_cons_iff.mp hi with hsep | hi
        · apply hp
          apply hsep.trans
          rw [← List.append_assoc]
          exact List.prefix_cons_inj c |>.mpr ((List.dropLast_prefix _).trans (List.prefix_append ..))
        · exact hfirst hi
      · rintro ⟨base, he, hfirst⟩
        cases base with
        | nil => exact absurd ⟨rest, he.symm⟩ hp
        | cons b base =>
          obtain ⟨rfl, hrest⟩ := List.cons_eq_cons.mp he
          refine ⟨base, hrest, fun hi => hfirst ?_⟩
          rw [List.cons_append, List.dropLast_cons_of_ne_nil (by simp [h])]
          exact List.infix_cons_iff.mpr (.inr hi)

end FirstOccurrence

/-- The bucket's name between slashes. -/
def StorageSettings.marker (settings : StorageSettings) : List Char := ("/" ++ settings.s3Bucket ++ "/").toList

/-- What `get_public_url` puts before the bucket. -/
def StorageSettings.base (settings : StorageSettings) : List Char := (rstripSlash settings.s3PublicUrl).toList

variable {settings : StorageSettings} {key url : String}

theorem marker_ne_nil : settings.marker ≠ [] := by
  simp [StorageSettings.marker]

theorem getPublicUrl_toList : (getPublicUrl settings key).toList = settings.base ++ (settings.marker ++ key.toList) := by
  simp [getPublicUrl, StorageSettings.base, StorageSettings.marker]

theorem keyFromPublicUrl_eq_some (hk : key ≠ "") : keyFromPublicUrl settings url = some key ↔
    ∃ base, url.toList = base ++ (settings.marker ++ key.toList) ∧
      ¬ settings.marker <:+: (base ++ settings.marker).dropLast := by
  rw [← afterFirst_eq_some marker_ne_nil]
  unfold keyFromPublicUrl StorageSettings.marker
  have hnil : key.toList ≠ [] := mt String.toList_eq_nil_iff.mp hk
  cases afterFirst ("/" ++ settings.s3Bucket ++ "/").toList url.toList with
  | none => simp
  | some text =>
    cases text with
    | nil => simp [hnil.symm]
    | cons c text =>
      simp only [Option.some.injEq]
      rw [← String.toList_inj, String.toList_ofList]

/-- A URL is parsed to a key exactly if it is that key's URL, provided that the bucket's name
between slashes stands earlier in the URL exactly if the URL is foreign. -/
theorem key_recovered (hk : key ≠ "") :
    (keyFromPublicUrl settings url = some key ↔ url = getPublicUrl settings key) ↔
      ∀ base, url.toList = base ++ (settings.marker ++ key.toList) →
        (settings.marker <:+: (base ++ settings.marker).dropLast ↔ base ≠ settings.base) := by
  rw [keyFromPublicUrl_eq_some hk, ← String.toList_inj, getPublicUrl_toList]
  constructor
  · intro h base hurl
    have hsome : (∃ base', url.toList = base' ++ (settings.marker ++ key.toList) ∧
        ¬ settings.marker <:+: (base' ++ settings.marker).dropLast) ↔
          ¬ settings.marker <:+: (base ++ settings.marker).dropLast := by
      constructor
      · rintro ⟨base', he, hfirst⟩
        rwa [List.append_cancel_right (hurl.symm.trans he)]
      · exact fun hfirst => ⟨base, hurl, hfirst⟩
    rw [hsome, hurl, List.append_left_inj] at h
    exact not_iff_comm.mp h |>.symm
  · intro h
    constructor
    · rintro ⟨base, hurl, hfirst⟩
      have hbase : base = settings.base := by
        by_contra hne
        exact hfirst ((h base hurl).mpr hne)
      rw [hurl, hbase]
    · intro hurl
      exact ⟨settings.base, hurl, fun hi => (h settings.base hurl).mp hi rfl⟩

theorem key_recovered_assets :
    keyFromPublicUrl assets (getPublicUrl assets "qr/7.png") = some "qr/7.png" := by
  refine ((key_recovered (by decide)).mpr fun base hbase => ?_).mpr rfl
  have hbase_eq : base = assets.base := by
    apply List.append_cancel_right
    rw [← hbase, getPublicUrl_toList]
  rw [hbase_eq]
  decide +kernel

/-- A picture of another host, under a path that has the bucket's name. -/
theorem key_recovered_fails : ¬ ∀ (settings : StorageSettings) (key url : String), key ≠ "" →
    (keyFromPublicUrl settings url = some key ↔ url = getPublicUrl settings key) := by
  intro h
  have hforeign := (h assets "qr/7.png" "https://cdn.example.com/qorder-assets/qr/7.png" (by decide)).mp
    (by decide +kernel)
  exact absurd hforeign (by decide +kernel)

end QOrder
