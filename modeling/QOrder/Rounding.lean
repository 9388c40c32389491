import Mathlib.Algebra.BigOperators.Ring.Finset
import Mathlib.Algebra.Order.BigOperators.Group.List
import Mathlib.Algebra.Order.Field.Basic
import Mathlib.Data.List.Induction
import Mathlib.Data.Rat.Lemmas
import QOrder.Binary64

/-! Rounding a rational to the nearest binary64 number. It never falls below a number that is one
itself, and grows by a relative error of at most `2 ^ (-53)`. A sum of amounts is exact if neither
they nor the running sums are rounded. -/

namespace Binary64

open PyDecimal (roundHalfEven)

section Integers

variable {n p j : Nat}

theorem le_roundHalfEven (hp : 0 < p) (h : j * p ≤ n) : j ≤ roundHalfEven n p := by
  have hfloor : j ≤ n / p := (Nat.le_div_iff_mul_le hp).mpr h
  unfold roundHalfEven
  split
  · exact Nat.le_succ_of_le hfloor
  · exact hfloor

theorem roundHalfEven_near (n p : Nat) : 2 * (roundHalfEven n p * p) ≤ 2 * n + p := by
  have hsplit := Nat.div_add_mod n p
  have hmul : n / p * p = p * (n / p) := Nat.mul_comm _ _
  unfold roundHalfEven
  split
  next hup =>
    rw [Nat.add_mul, one_mul]
    omega
  next => omega

end Integers

section Fractions

variable {n d m : Nat} {e : Int}

/-- The mantissa is the rounded quotient at the exponent. -/
theorem mantissa_spec (hd : 0 < d) : ∃ N P : Nat, 0 < P ∧ mantissa n d = roundHalfEven N P ∧
    (N : Rat) / P * 2 ^ exponent n d = n / d := by
  have hd' : (d : Rat) ≠ 0 := by exact_mod_cast hd.ne'
  unfold mantissa
  by_cases he : 0 ≤ exponent n d
  · obtain ⟨k, hk⟩ := Int.eq_ofNat_of_zero_le he
    refine ⟨n, d * 2 ^ k, by positivity, ?_, ?_⟩
    · rw [if_pos he, hk, Int.toNat_natCast]
    · rw [hk, zpow_natCast]
      push_cast
      field_simp
  · obtain ⟨k, hk⟩ := Int.eq_ofNat_of_zero_le (by omega : 0 ≤ -exponent n d)
    have hexp : exponent n d = -(k : Int) := by omega
    refine ⟨n * 2 ^ k, d, hd, ?_, ?_⟩
    · rw [if_neg he, hk, Int.toNat_natCast]
    · rw [hexp, zpow_neg, zpow_natCast]
      push_cast
      field_simp

theorem two_zpow_pos (e : Int) : (0 : Rat) < 2 ^ e := zpow_pos (by norm_num) e

theorem ofFraction_nonneg (n d : Nat) : 0 ≤ ofFraction n d :=
  mul_nonneg (Nat.cast_nonneg _) (two_zpow_pos _).le

theorem ofFraction_zero (hd : 0 < d) : ofFraction 0 d = 0 := by
  have hzero : mantissa 0 d = 0 := mantissa_of_eq hd (by simp)
  simp [ofFraction, hzero]

theorem pow_split (e k : Int) : (2 : Rat) ^ (e + k) = 2 ^ k * 2 ^ e := by
  rw [zpow_add₀ (by norm_num), mul_comm]

/-- A number with at most 53 bits is one of a multiple of a smaller power of two. -/
theorem scale_down {E : Int} (h : E ≤ e) : (m : Rat) * 2 ^ e = ((m * 2 ^ (e - E).toNat : Nat) : Rat) * 2 ^ E := by
  have hsplit : e = E + ((e - E).toNat : Int) := by omega
  rw [Nat.cast_mul, Nat.cast_pow, Nat.cast_ofNat, ← zpow_natCast, mul_assoc, ← pow_split, ← hsplit]

theorem le_ofFraction (hd : 0 < d) (hm : m < 2 ^ 53) (h : (m : Rat) * 2 ^ e ≤ n / d) :
    (m : Rat) * 2 ^ e ≤ ofFraction n d := by
  obtain ⟨N, P, hP, hmant, hvalue⟩ := mantissa_spec (n := n) hd
  have hP' : (0 : Rat) < P := by exact_mod_cast hP
  have hpow := two_zpow_pos (exponent n d)
  have hlift {j : Nat} (hj : (j : Rat) * 2 ^ exponent n d ≤ n / d) : (j : Rat) * 2 ^ exponent n d ≤ ofFraction n d := by
    rw [← hvalue, mul_le_mul_iff_left₀ hpow, le_div_iff₀ hP'] at hj
    have hround : j ≤ mantissa n d := by
      rw [hmant]
      exact le_roundHalfEven hP (by exact_mod_cast hj)
    rw [ofFraction, mul_le_mul_iff_left₀ hpow]
    exact_mod_cast hround
  by_cases he : exponent n d ≤ e
  · rw [scale_down he] at h ⊢
    exact hlift h
  · by_cases hn : n = 0
    · subst hn
      have hzero : (m : Rat) * 2 ^ e ≤ 0 := by simpa using h
      exact hzero.trans (ofFraction_nonneg 0 d)
    · have hnormal := pow_exponent_le (Nat.pos_of_ne_zero hn) hd
      have hm' : (m : Rat) ≤ 2 ^ (53 : Int) := by exact_mod_cast hm.le
      have hsmall : (m : Rat) * 2 ^ e ≤ 2 ^ (exponent n d + 52) := by
        refine (mul_le_mul_of_nonneg_right hm' (two_zpow_pos e).le).trans ?_
        rw [← pow_split]
        exact zpow_le_zpow_right₀ (by norm_num) (by omega)
      have hgrid : ((2 ^ 52 : Nat) : Rat) * 2 ^ exponent n d = 2 ^ (exponent n d + 52) := by
        rw [pow_split]
        norm_num
      rw [← hgrid] at hnormal hsmall
      exact hsmall.trans (hlift hnormal)

theorem ofFraction_le_mul (hd : 0 < d) : ofFraction n d ≤ (n : Rat) / d * (1 + 2 ^ (-53 : Int)) := by
  by_cases hn : n = 0
  · subst hn
    rw [ofFraction_zero hd]
    simp
  · obtain ⟨N, P, hP, hmant, hvalue⟩ := mantissa_spec (n := n) hd
    have hP' : (0 : Rat) < P := by exact_mod_cast hP
    have hpow := two_zpow_pos (exponent n d)
    have hnormal := pow_exponent_le (Nat.pos_of_ne_zero hn) hd
    rw [pow_split] at hnormal
    have hnear : (2 : Rat) * (mantissa n d * P) ≤ 2 * N + P := by
      rw [hmant]
      exact_mod_cast roundHalfEven_near N P
    have hmantissa : (mantissa n d : Rat) ≤ N / P + 1 / 2 := by
      rw [← sub_le_iff_le_add, le_div_iff₀ hP']
      linarith
    have hscaled := mul_le_mul_of_nonneg_right hmantissa hpow.le
    rw [ofFraction]
    have hpow53 : (2 : Rat) ^ (-53 : Int) * 2 ^ (52 : Int) = 1 / 2 := by norm_num
    nlinarith

end Fractions

/-- The nearest number to the rational. -/
def nearest (q : Rat) : Rat := q.num.sign * ofFraction q.num.natAbs q.den

/-- At most 53 significant bits. -/
def Representable (t : Rat) : Prop := ∃ (m : Nat) (e : Int), m < 2 ^ 53 ∧ t = m * 2 ^ e

section Rationals

variable {q t : Rat}

theorem nearest_of_nonpos (h : q ≤ 0) : nearest q ≤ 0 := by
  have hsign : q.num.sign ≤ 0 := Int.sign_nonpos_iff.mpr (Rat.num_nonpos.mpr h)
  have hcast : ((q.num.sign : Int) : Rat) ≤ 0 := by exact_mod_cast hsign
  exact mul_nonpos_of_nonpos_of_nonneg hcast (ofFraction_nonneg _ _)

theorem nearest_of_pos (h : 0 < q) : nearest q = ofFraction q.num.natAbs q.den ∧
    (q.num.natAbs : Rat) / q.den = q := by
  have hnum : 0 < q.num := Rat.num_pos.mpr h
  refine ⟨?_, ?_⟩
  · rw [nearest, Int.sign_eq_one_of_pos hnum]
    simp
  · have habs : ((q.num.natAbs : Nat) : Rat) = (q.num : Rat) := by
      rw [← Int.cast_natCast, Int.natAbs_of_nonneg hnum.le]
    rw [habs]
    exact Rat.num_div_den q

theorem nearest_nonneg (h : 0 ≤ q) : 0 ≤ nearest q := by
  rcases h.eq_or_lt with rfl | h
  · simp [nearest]
  · rw [(nearest_of_pos h).1]
    exact ofFraction_nonneg _ _

theorem le_nearest (ht : Representable t) (hq : 0 < q) (h : t ≤ q) : t ≤ nearest q := by
  obtain ⟨m, e, hm, rfl⟩ := ht
  obtain ⟨hn, hv⟩ := nearest_of_pos hq
  rw [hn]
  exact le_ofFraction q.den_pos hm (by rwa [hv])

theorem nearest_le_mul (hq : 0 ≤ q) : nearest q ≤ q * (1 + 2 ^ (-53 : Int)) := by
  rcases hq.eq_or_lt with rfl | hq
  · simp [nearest]
  · obtain ⟨hn, hv⟩ := nearest_of_pos hq
    have herror := ofFraction_le_mul (n := q.num.natAbs) q.den_pos
    rw [hv] at herror
    rw [hn]
    exact herror

/-- Exactly the numbers themselves are not rounded. -/
theorem nearest_eq_iff : nearest q = q ↔ Representable |q| := by
  by_cases hq : q = 0
  · subst hq
    exact iff_of_true (by simp [nearest]) ⟨0, 0, by decide, by simp⟩
  · have hsign : ((q.num.sign : Int) : Rat) ≠ 0 := by
      rw [Int.cast_ne_zero, ne_eq, Int.sign_eq_zero_iff_zero, Rat.num_eq_zero]
      exact hq
    have habs : |q| = (q.num.natAbs : Rat) / q.den := by
      rw [Nat.cast_natAbs, Int.cast_abs, ← Rat.num_div_den q, abs_div, Nat.abs_cast, Rat.num_div_den]
    have hsplit : q = q.num.sign * |q| := by
      rw [habs, ← mul_div_assoc, Nat.cast_natAbs, ← Int.cast_mul, Int.sign_mul_abs, Rat.num_div_den]
    calc nearest q = q ↔ q.num.sign * ofFraction q.num.natAbs q.den = q.num.sign * |q| := by rw [nearest, ← hsplit]
      _ ↔ ofFraction q.num.natAbs q.den = |q| := mul_right_inj' hsign
      _ ↔ Representable |q| := by
        rw [habs]
        exact ofFraction_eq_iff q.den_pos

theorem representable_nat {n : Nat} (h : n < 2 ^ 53) : Representable (n : Rat) := ⟨n, 0, h, by simp⟩

end Rationals

section Sums

/-- The price of each line, taken as often as the line says, added up one after the other. -/
def addUp (lines : List (Rat × Rat)) : Rat :=
  lines.foldl (fun sum l => nearest (sum + nearest (nearest l.1 * l.2))) 0

def exactSum (lines : List (Rat × Rat)) : Rat := (lines.map fun l => l.1 * l.2).sum

/-- The prices, the amounts of the lines and the running sums are binary64 numbers. -/
structure Unrounded (lines : List (Rat × Rat)) : Prop where
  prices : ∀ l ∈ lines, Representable |l.1|
  amounts : ∀ l ∈ lines, Representable |l.1 * l.2|
  sums : ∀ first, first <+: lines → Representable |exactSum first|

variable {lines : List (Rat × Rat)}

theorem Unrounded.of_prefix {first : List (Rat × Rat)} (h : Unrounded lines) (hp : first <+: lines) : Unrounded first :=
  ⟨fun l hl => h.prices l (hp.subset hl), fun l hl => h.amounts l (hp.subset hl), fun _ hf => h.sums _ (hf.trans hp)⟩

/-- Where nothing is rounded, the sum is the exact one. -/
theorem addUp_eq (h : Unrounded lines) : addUp lines = exactSum lines := by
  induction lines using List.reverseRecOn with
  | nil => rfl
  | append_singleton first l ih =>
    have hmem : l ∈ first ++ [l] := List.mem_append_right _ List.mem_cons_self
    have hbefore := ih (h.of_prefix (List.prefix_append first [l]))
    have hprice := nearest_eq_iff.mpr (h.prices l hmem)
    have hamount := nearest_eq_iff.mpr (h.amounts l hmem)
    have hsum := nearest_eq_iff.mpr (h.sums _ (List.prefix_refl _))
    have hexact : exactSum (first ++ [l]) = exactSum first + l.1 * l.2 := by simp [exactSum]
    rw [hexact] at hsum ⊢
    rw [addUp, List.foldl_append, List.foldl_cons, List.foldl_nil, hprice, hamount]
    change nearest (addUp first + l.1 * l.2) = _
    rw [hbefore, hsum]

example : addUp [(1 / 10, 3)] ≠ exactSum [(1 / 10, 3)] := by decide +kernel

/-- Whole prices are not rounded while their total has 53 bits. -/
theorem unrounded_of_whole {prices : List (Nat × Nat)} (h : (prices.map fun p => p.1 * p.2).sum < 2 ^ 53)
    (hp : ∀ p ∈ prices, 0 < p.2) : Unrounded (prices.map fun p => ((p.1 : Rat), (p.2 : Rat))) := by
  have hwhole (n : Nat) (hn : n < 2 ^ 53) : Representable |(n : Rat)| := by
    rw [Nat.abs_cast]
    exact representable_nat hn
  have hamount : ∀ p ∈ prices, p.1 * p.2 < 2 ^ 53 := fun p hmem =>
    (List.le_sum_of_mem (List.mem_map_of_mem hmem)).trans_lt h
  refine ⟨?_, ?_, fun first hfirst => ?_⟩
  · intro l hl
    obtain ⟨p, hmem, rfl⟩ := List.mem_map.mp hl
    exact hwhole p.1 ((Nat.le_mul_of_pos_right _ (hp p hmem)).trans_lt (hamount p hmem))
  · intro l hl
    obtain ⟨p, hmem, rfl⟩ := List.mem_map.mp hl
    rw [← Nat.cast_mul]
    exact hwhole _ (hamount p hmem)
  · obtain ⟨rest, hrest⟩ := hfirst
    obtain ⟨taken, others, rfl, rfl, -⟩ := List.map_eq_append_iff.mp hrest.symm
    have hsum : exactSum (taken.map fun p => ((p.1 : Rat), (p.2 : Rat))) = ((taken.map fun p => p.1 * p.2).sum : Nat) := by
      rw [exactSum, List.map_map, Nat.cast_list_sum, List.map_map]
      congr 1
      exact List.map_congr_left fun p _ => (Nat.cast_mul _ _).symm
    rw [hsum]
    refine hwhole _ (lt_of_le_of_lt ?_ h)
    rw [List.map_append, List.sum_append]
    exact Nat.le_add_right _ _

end Sums

end Binary64
