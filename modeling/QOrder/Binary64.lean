import Mathlib.Data.Nat.Log
import QOrder.PyDecimal

/-! The nearest binary64 number to a fraction, for numbers that are neither subnormal nor too
large, and the fractions that are such numbers themselves. -/

namespace Binary64

open PyDecimal (roundHalfEven)

/-- The exponent with which the fraction has 53 bits before the point. -/
def exponent (n d : Nat) : Int :=
  (Nat.log 2 (n * 2 ^ (Nat.log 2 d + 1) / d) : Int) - (Nat.log 2 d + 1 : Nat) - 52

def mantissa (n d : Nat) : Nat :=
  if 0 ≤ exponent n d then roundHalfEven n (d * 2 ^ (exponent n d).toNat)
  else roundHalfEven (n * 2 ^ (-exponent n d).toNat) d

/-- The nearest number to `n / d`, to the even one of two. -/
def ofFraction (n d : Nat) : Rat := mantissa n d * (2 : Rat) ^ exponent n d

/-- The fraction has at most 53 significant bits. -/
def Exact (n d : Nat) : Prop := ∃ (m : Nat) (e : Int), m < 2 ^ 53 ∧ (n : Rat) / d = m * (2 : Rat) ^ e

variable {n d m : Nat} {e : Int}

theorem roundHalfEven_of_dvd {p : Nat} (hp : 0 < p) (h : n = m * p) : roundHalfEven n p = m := by
  subst h
  rw [roundHalfEven, Nat.mul_mod_left, Nat.mul_div_cancel _ hp, if_neg (by omega)]

/-- A fraction that is an integer at its exponent is not rounded. -/
theorem mantissa_of_eq (hd : 0 < d) (h : (n : Rat) / d = m * (2 : Rat) ^ exponent n d) : mantissa n d = m := by
  have hd' : (d : Rat) ≠ 0 := by
    exact_mod_cast hd.ne'
  rw [div_eq_iff hd'] at h
  unfold mantissa
  by_cases he : 0 ≤ exponent n d
  · obtain ⟨k, hk⟩ := Int.eq_ofNat_of_zero_le he
    rw [if_pos he, hk, Int.toNat_natCast]
    refine roundHalfEven_of_dvd (by positivity) ?_
    rw [hk, zpow_natCast] at h
    have hnat : (n : Rat) = ((m * (d * 2 ^ k) : Nat) : Rat) := by
      rw [h]
      push_cast
      ring
    exact_mod_cast hnat
  · obtain ⟨k, hk⟩ := Int.eq_ofNat_of_zero_le (by omega : 0 ≤ -exponent n d)
    have hexp : exponent n d = -(k : Int) := by
      omega
    rw [if_neg he, hk, Int.toNat_natCast]
    refine roundHalfEven_of_dvd hd ?_
    rw [hexp, zpow_neg, zpow_natCast] at h
    have hpow : (2 : Rat) ^ k ≠ 0 := by
      positivity
    have hnat : ((n * 2 ^ k : Nat) : Rat) = ((m * d : Nat) : Rat) := by
      push_cast
      rw [h]
      field_simp
    exact_mod_cast hnat

theorem zpow_exponent (n d : Nat) : (2 : Rat) ^ (exponent n d + 52) * 2 ^ (Nat.log 2 d + 1) =
    2 ^ Nat.log 2 (n * 2 ^ (Nat.log 2 d + 1) / d) := by
  have hsum : exponent n d + 52 + (Nat.log 2 d + 1 : Nat) = (Nat.log 2 (n * 2 ^ (Nat.log 2 d + 1) / d) : Nat) := by
    unfold exponent
    omega
  rw [← zpow_natCast (2 : Rat) (Nat.log 2 d + 1), ← zpow_add₀ (by norm_num), hsum, zpow_natCast]

/-- The fraction lies between two powers of two. -/
theorem pow_exponent_le (hn : 0 < n) (hd : 0 < d) : (2 : Rat) ^ (exponent n d + 52) ≤ (n : Rat) / d := by
  have hd' : (0 : Rat) < d := by
    exact_mod_cast hd
  have hpos : n * 2 ^ (Nat.log 2 d + 1) / d ≠ 0 := by
    have hlt := Nat.lt_pow_succ_log_self (by decide : 1 < 2) d
    have hle : d ≤ n * 2 ^ (Nat.log 2 d + 1) := hlt.le.trans (Nat.le_mul_of_pos_left _ hn)
    exact (Nat.div_pos hle hd).ne'
  have hlog := Nat.pow_log_le_self 2 hpos
  rw [Nat.le_div_iff_mul_le hd] at hlog
  have hrat : (2 : Rat) ^ Nat.log 2 (n * 2 ^ (Nat.log 2 d + 1) / d) * d ≤ n * 2 ^ (Nat.log 2 d + 1) := by
    exact_mod_cast hlog
  rw [← zpow_exponent] at hrat
  rw [le_div_iff₀ hd']
  have hpow : (0 : Rat) < 2 ^ (Nat.log 2 d + 1) := by
    positivity
  nlinarith

theorem lt_pow_exponent (hd : 0 < d) : (n : Rat) / d < (2 : Rat) ^ (exponent n d + 53) := by
  have hd' : (0 : Rat) < d := by
    exact_mod_cast hd
  have hlog := Nat.lt_pow_succ_log_self (by decide : 1 < 2) (n * 2 ^ (Nat.log 2 d + 1) / d)
  rw [Nat.div_lt_iff_lt_mul hd] at hlog
  have hrat : (n : Rat) * 2 ^ (Nat.log 2 d + 1) <
      2 ^ Nat.log 2 (n * 2 ^ (Nat.log 2 d + 1) / d) * 2 * d := by
    rw [Nat.pow_succ] at hlog
    exact_mod_cast hlog
  have hsplit : (2 : Rat) ^ (exponent n d + 53) = 2 ^ (exponent n d + 52) * 2 := by
    rw [show exponent n d + 53 = exponent n d + 52 + 1 by ring, zpow_add_one₀ (by norm_num)]
  rw [← zpow_exponent] at hrat
  rw [div_lt_iff₀ hd', hsplit]
  have hpow : (0 : Rat) < 2 ^ (Nat.log 2 d + 1) := by
    positivity
  nlinarith

theorem ofFraction_eq_iff (hd : 0 < d) : ofFraction n d = (n : Rat) / d ↔ Exact n d := by
  constructor
  · intro h
    refine ⟨mantissa n d, exponent n d, ?_, h.symm⟩
    have hlt := lt_pow_exponent (n := n) hd
    rw [← h, ofFraction, zpow_add₀ (by norm_num), mul_comm] at hlt
    have hmantissa : (mantissa n d : Rat) < 2 ^ (53 : Int) := lt_of_mul_lt_mul_left hlt (zpow_nonneg (by norm_num) _)
    exact_mod_cast hmantissa
  · rintro ⟨m, e, hm, h⟩
    by_cases hn : n = 0
    · subst hn
      have hzero : mantissa 0 d = 0 := mantissa_of_eq hd (by simp)
      simp [ofFraction, hzero]
    · -- the exponent is the least at which the fraction can be an integer below `2 ^ 53`
      have hle := pow_exponent_le (Nat.pos_of_ne_zero hn) hd
      have hm' : (m : Rat) < 2 ^ (53 : Int) := by
        exact_mod_cast hm
      have hlt : (2 : Rat) ^ (exponent n d + 52) < 2 ^ (53 + e) := by
        rw [zpow_add₀ (by norm_num : (2 : Rat) ≠ 0) 53 e]
        exact (hle.trans_eq h).trans_lt (mul_lt_mul_of_pos_right hm' (zpow_pos (by norm_num) e))
      have hexp : exponent n d ≤ e := by
        have := (zpow_lt_zpow_iff_right₀ (by norm_num : (1 : Rat) < 2)).mp hlt
        omega
      obtain ⟨k, hk⟩ := Int.eq_ofNat_of_zero_le (by omega : 0 ≤ e - exponent n d)
      have hint : (n : Rat) / d = ((m * 2 ^ k : Nat) : Rat) * 2 ^ exponent n d := by
        have hsum : e = (k : Int) + exponent n d := by
          omega
        rw [h, hsum, zpow_add₀ (by norm_num), zpow_natCast]
        push_cast
        ring
      rw [ofFraction, mantissa_of_eq hd hint, hint]

end Binary64
