import Mathlib.Logic.Function.Basic

/-! A key-value store whose entries expire: `SET EX`, `SET NX EX`, `GET`, `GETDEL`, `DEL`
and the removal of expired entries, each one atomic. -/

namespace ExpiringStore

structure Entry (V : Type) where
  value : V
  expiresAt : Nat
  deriving DecidableEq

abbrev Store (K V : Type) := K → Option (Entry V)

variable {K V : Type}

def get (s : Store K V) (now : Nat) (k : K) : Option V :=
  (s k).bind fun e => if now < e.expiresAt then some e.value else none

variable [DecidableEq K]

def set (s : Store K V) (k : K) (v : V) (expiresAt : Nat) : Store K V :=
  Function.update s k (some ⟨v, expiresAt⟩)

def setNx (s : Store K V) (now : Nat) (k : K) (v : V) (expiresAt : Nat) : Option (Store K V) :=
  if (get s now k).isSome then none else some (set s k v expiresAt)

def del (s : Store K V) (k : K) : Store K V := Function.update s k none

def getDel (s : Store K V) (now : Nat) (k : K) : Option V × Store K V := (get s now k, del s k)

/-- An expired entry goes. -/
def expire (s : Store K V) (now : Nat) (k : K) : Store K V :=
  if (get s now k).isSome then s else del s k

section Lemmas

variable {s s' : Store K V} {now now' expiresAt : Nat} {k k' : K} {v : V}

omit [DecidableEq K] in
theorem get_eq_some : get s now k = some v ↔ ∃ expiresAt, s k = some ⟨v, expiresAt⟩ ∧ now < expiresAt := by
  unfold get
  cases s k with
  | none => simp
  | some e =>
    obtain ⟨w, at_⟩ := e
    by_cases h : now < at_
    · simp only [Option.bind_some, if_pos h, Option.some.injEq, Entry.mk.injEq]
      constructor
      · rintro rfl
        exact ⟨at_, ⟨rfl, rfl⟩, h⟩
      · rintro ⟨_, ⟨rfl, -⟩, -⟩
        rfl
    · simp only [Option.bind_some, if_neg h, Option.some.injEq, Entry.mk.injEq]
      constructor
      · intro hn
        cases hn
      · rintro ⟨_, ⟨-, rfl⟩, hlt⟩
        exact absurd hlt h

omit [DecidableEq K] in
theorem get_of_entry (h : s k = some ⟨v, expiresAt⟩) (hlt : now < expiresAt) : get s now k = some v :=
  get_eq_some.mpr ⟨expiresAt, h, hlt⟩

@[simp] theorem set_self : set s k v expiresAt k = some ⟨v, expiresAt⟩ := Function.update_self ..

@[simp] theorem set_other (h : k' ≠ k) : set s k v expiresAt k' = s k' := Function.update_of_ne h ..

@[simp] theorem del_self : del s k k = none := Function.update_self ..

@[simp] theorem del_other (h : k' ≠ k) : del s k k' = s k' := Function.update_of_ne h ..

theorem setNx_eq_some : setNx s now k v expiresAt = some s' ↔
    get s now k = none ∧ s' = set s k v expiresAt := by
  unfold setNx
  cases get s now k with
  | none => simp [eq_comm]
  | some w => simp

theorem entry_of_del (h : del s k k' = some ⟨v, expiresAt⟩) : k' ≠ k ∧ s k' = some ⟨v, expiresAt⟩ := by
  by_cases hk : k' = k
  · subst hk
    simp at h
  · exact ⟨hk, by rwa [del_other hk] at h⟩

/-- An entry that can still be read does not expire. -/
theorem expire_live (h : s k' = some ⟨v, expiresAt⟩) (hlt : now < expiresAt) :
    expire s now k k' = some ⟨v, expiresAt⟩ := by
  unfold expire
  split
  · exact h
  next hn =>
    by_cases hk : k' = k
    · subst hk
      rw [get_of_entry h hlt] at hn
      exact absurd rfl hn
    · rw [del_other hk, h]

theorem entry_of_expire (h : expire s now k k' = some ⟨v, expiresAt⟩) : s k' = some ⟨v, expiresAt⟩ := by
  unfold expire at h
  split at h
  · exact h
  · exact (entry_of_del h).2

end Lemmas

end ExpiringStore
