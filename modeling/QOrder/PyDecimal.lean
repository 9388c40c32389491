import Mathlib.Algebra.Order.Field.Rat
import Mathlib.Tactic.FieldSimp
import Mathlib.Tactic.Ring
import Mathlib.Tactic.Linarith

/-! Decimal numbers with a sign, a coefficient and an exponent: products in a context of 28
digits, conversion to integers, and their texts, read back as numbers. -/

structure PyDecimal where
  negative : Bool
  coeff : Nat
  exp : Int
  deriving DecidableEq, Repr

namespace PyDecimal

def sign (negative : Bool) : Int := if negative then -1 else 1

/-- The number that a decimal stands for. -/
def value (d : PyDecimal) : Rat := sign d.negative * d.coeff * (10 : Rat) ^ d.exp

def ofInt (n : Int) : PyDecimal := ⟨decide (n < 0), n.natAbs, 0⟩

/-- The digits of the default context. -/
def prec : Nat := 28

def digits (n : Nat) : List Char := Nat.toDigits 10 n

/-- The quotient, rounded to the nearest, and to the even one of two. -/
def roundHalfEven (n p : Nat) : Nat :=
  if p < 2 * (n % p) ∨ 2 * (n % p) = p ∧ n / p % 2 = 1 then n / p + 1 else n / p

/-- A coefficient of more than `prec` digits is rounded. -/
def fix (d : PyDecimal) : PyDecimal :=
  let excess := (digits d.coeff).length - prec
  if excess = 0 then d
  else
    let coeff := roundHalfEven d.coeff (10 ^ excess)
    if coeff < 10 ^ prec then ⟨d.negative, coeff, d.exp + excess⟩
    else ⟨d.negative, coeff / 10, d.exp + excess + 1⟩

def mul (a b : PyDecimal) : PyDecimal := fix ⟨a.negative != b.negative, a.coeff * b.coeff, a.exp + b.exp⟩

/-- `int(d)`, towards zero. -/
def toInt (d : PyDecimal) : Int :=
  sign d.negative *
    if 0 ≤ d.exp then ((d.coeff * 10 ^ d.exp.toNat : Nat) : Int) else ((d.coeff / 10 ^ (-d.exp).toNat : Nat) : Int)

def minus (negative : Bool) : List Char := if negative then ['-'] else []

/-- The decimal point stands after `dotplace` of the digits, which may lie beyond them. -/
def pointed (digits : List Char) (dotplace : Int) : List Char :=
  if dotplace ≤ 0 then '0' :: '.' :: (List.replicate (-dotplace).toNat '0' ++ digits)
  else if digits.length ≤ dotplace then digits ++ List.replicate (dotplace - digits.length).toNat '0'
  else digits.take dotplace.toNat ++ '.' :: digits.drop dotplace.toNat

/-- The text of an integer with its sign. -/
def signed (n : Int) : List Char := (if n < 0 then '-' else '+') :: digits n.natAbs

/-- `str(d)` -/
def str (d : PyDecimal) : List Char :=
  let leftdigits := d.exp + (digits d.coeff).length
  let dotplace := if d.exp ≤ 0 ∧ -6 < leftdigits then leftdigits else 1
  minus d.negative ++ pointed (digits d.coeff) dotplace ++
    if leftdigits = dotplace then [] else 'E' :: signed (leftdigits - dotplace)

section Reading

/-- The number of an unsigned text of digits. -/
def readNat (text : List Char) : Nat := Nat.ofDigitChars 10 text 0

def readInt : List Char → Int
  | '-' :: text => -(readNat text)
  | '+' :: text => readNat text
  | text => readNat text

/-- The parts of a text before and after the first of a character. -/
def cut (c : Char) : List Char → List Char × List Char
  | [] => ([], [])
  | x :: text => if x = c then ([], text) else (x :: (cut c text).1, (cut c text).2)

/-- The number of a text of digits with at most one point. -/
def readPointed (text : List Char) : Rat :=
  let (whole, frac) := cut '.' text
  readNat (whole ++ frac) * (10 : Rat) ^ (-(frac.length : Int))

def readUnsigned (text : List Char) : Rat :=
  let (mantissa, exponent) := cut 'E' text
  readPointed mantissa * (10 : Rat) ^ readInt exponent

def read : List Char → Rat
  | '-' :: text => -readUnsigned text
  | text => readUnsigned text

variable {n : Nat} {c : Char} {text : List Char} {d : PyDecimal}

@[simp] theorem readNat_digits (n : Nat) : readNat (digits n) = n := Nat.ofDigitChars_ten_toDigits

theorem not_mem_digits (h : c.isDigit = false) : c ∉ digits n := by
  intro hm
  rw [Nat.isDigit_of_mem_toDigits (by decide) (by decide) hm] at h
  cases h

theorem cut_append (h : c ∉ text) (text' : List Char) : cut c (text ++ c :: text') = (text, text') := by
  induction text with
  | nil => simp [cut]
  | cons x text ih =>
    have hx : x ≠ c := fun he => h (he ▸ List.mem_cons_self)
    simp [cut, hx, ih fun hm => h (List.mem_cons_of_mem x hm)]

theorem cut_self (h : c ∉ text) : cut c text = (text, []) := by
  induction text with
  | nil => rfl
  | cons x text ih =>
    have hx : x ≠ c := fun he => h (he ▸ List.mem_cons_self)
    simp [cut, hx, ih fun hm => h (List.mem_cons_of_mem x hm)]

theorem readPointed_whole (h : '.' ∉ text) : readPointed text = readNat text := by
  simp [readPointed, cut_self h]

theorem readPointed_append (h : '.' ∉ text) (text' : List Char) :
    readPointed (text ++ '.' :: text') = readNat (text ++ text') * (10 : Rat) ^ (-(text'.length : Int)) := by
  simp [readPointed, cut_append h]

theorem readNat_zeros (k : Nat) (text : List Char) : readNat (List.replicate k '0' ++ text) = readNat text := by
  rw [readNat, Nat.ofDigitChars_append, Nat.ofDigitChars_replicate_zero, Nat.mul_zero, readNat]

theorem readNat_shift (text : List Char) (k : Nat) :
    readNat (text ++ List.replicate k '0') = 10 ^ k * readNat text := by
  rw [readNat, Nat.ofDigitChars_append, Nat.ofDigitChars_replicate_zero, readNat]

/-- Placing the point divides by a power of ten. -/
theorem readPointed_pointed (n : Nat) (dotplace : Int) :
    readPointed (pointed (digits n) dotplace) = n * (10 : Rat) ^ (dotplace - (digits n).length) := by
  have hdot : '.' ∉ digits n := not_mem_digits rfl
  unfold pointed
  by_cases hlow : dotplace ≤ 0
  · have hnat : readNat (['0'] ++ (List.replicate (-dotplace).toNat '0' ++ digits n)) = n := by
      rw [← List.replicate_one, readNat_zeros, readNat_zeros, readNat_digits]
    have hzero : '.' ∉ ['0'] := by decide
    have hread := readPointed_append hzero (List.replicate (-dotplace).toNat '0' ++ digits n)
    rw [List.singleton_append, hnat] at hread
    rw [if_pos hlow, hread]
    congr 2
    simp only [List.length_append, List.length_replicate]
    omega
  · rw [if_neg hlow]
    by_cases hlong : (digits n).length ≤ dotplace
    · have hno : '.' ∉ digits n ++ List.replicate (dotplace - (digits n).length).toNat '0' := by
        simp [hdot, List.mem_replicate]
      rw [if_pos hlong, readPointed_whole hno, readNat_shift, readNat_digits]
      have hexp : dotplace - (digits n).length = ((dotplace - (digits n).length).toNat : Int) := by
        omega
      rw [hexp, zpow_natCast, Int.toNat_natCast, Nat.cast_mul, Nat.cast_pow, mul_comm]
      rfl
    · have hno : '.' ∉ (digits n).take dotplace.toNat := fun hm => hdot (List.mem_of_mem_take hm)
      rw [if_neg hlong, readPointed_append hno, List.take_append_drop, readNat_digits]
      congr 2
      rw [List.length_drop]
      omega

theorem readInt_signed (k : Int) : readInt (signed k) = k := by
  unfold signed readInt
  by_cases h : k < 0
  · simp only [h, if_true, readNat_digits]
    omega
  · simp only [h, if_false, readNat_digits]
    omega

theorem not_mem_pointed {dotplace : Int} (hc : c.isDigit = false) (hdot : c ≠ '.') :
    c ∉ pointed (digits n) dotplace := by
  have hdigits : c ∉ digits n := not_mem_digits hc
  have hzero : c ≠ '0' := by
    rintro rfl
    cases hc
  unfold pointed
  split
  · simp [hdigits, hdot, hzero, List.mem_replicate]
  · split
    · simp [hdigits, hzero, List.mem_replicate]
    · simp only [List.mem_append, List.mem_cons, not_or]
      exact ⟨fun hm => hdigits (List.mem_of_mem_take hm), hdot, fun hm => hdigits (List.mem_of_mem_drop hm)⟩

theorem not_mem_signed {k : Int} (hc : c.isDigit = false) (hminus : c ≠ '-') (hplus : c ≠ '+') :
    c ∉ signed k := by
  unfold signed
  rw [List.mem_cons, not_or]
  refine ⟨?_, not_mem_digits hc⟩
  split
  · exact hminus
  · exact hplus

/-- The text of a decimal has digits, a point, signs and an `E`. -/
theorem space_not_mem_str : ' ' ∉ d.str := by
  have hexponent : ∀ k k' : Int, ' ' ∉ if k = k' then [] else 'E' :: signed (k - k') := by
    intro k k'
    split
    · exact List.not_mem_nil
    · rw [List.mem_cons, not_or]
      exact ⟨by decide, not_mem_signed rfl (by decide) (by decide)⟩
  unfold str
  simp only [List.mem_append, not_or]
  refine ⟨⟨?_, not_mem_pointed rfl (by decide)⟩, hexponent _ _⟩
  unfold minus
  split <;> decide

/-- A text that begins with a digit has no sign. -/
theorem pointed_head (n : Nat) (dotplace : Int) : ∃ c text, pointed (digits n) dotplace = c :: text ∧ c ≠ '-' := by
  have hne : digits n ≠ [] := Nat.toDigits_ne_nil
  obtain ⟨c, text, hcons⟩ := List.exists_cons_of_ne_nil hne
  have hc : c ≠ '-' := by
    intro he
    have hm : '-' ∈ digits n := by
      rw [hcons, he]
      exact List.mem_cons_self
    exact not_mem_digits rfl hm
  unfold pointed
  by_cases hlow : dotplace ≤ 0
  · rw [if_pos hlow]
    exact ⟨_, _, rfl, by decide⟩
  · rw [if_neg hlow]
    split
    · exact ⟨c, _, by rw [hcons, List.cons_append], hc⟩
    · have htake : (digits n).take dotplace.toNat = c :: text.take (dotplace.toNat - 1) := by
        obtain ⟨k, hk⟩ : ∃ k, dotplace.toNat = k + 1 := ⟨dotplace.toNat - 1, by omega⟩
        rw [hcons, hk, List.take_succ_cons, Nat.add_sub_cancel]
      exact ⟨c, _, by rw [htake, List.cons_append], hc⟩

/-- A decimal's text is read back as its value. -/
theorem read_str (d : PyDecimal) : read d.str = d.value := by
  unfold str
  simp only
  generalize hplace : (if d.exp ≤ 0 ∧ -6 < d.exp + ((digits d.coeff).length : Int) then
    d.exp + ((digits d.coeff).length : Int) else 1) = dotplace
  have hunsigned : readUnsigned (pointed (digits d.coeff) dotplace ++
      if d.exp + ((digits d.coeff).length : Int) = dotplace then []
      else 'E' :: signed (d.exp + ((digits d.coeff).length : Int) - dotplace)) =
        d.coeff * (10 : Rat) ^ d.exp := by
    have hE : 'E' ∉ pointed (digits d.coeff) dotplace := not_mem_pointed rfl (by decide)
    unfold readUnsigned
    by_cases hexp : d.exp + ((digits d.coeff).length : Int) = dotplace
    · rw [if_pos hexp, List.append_nil, cut_self hE]
      have hzero : readInt [] = 0 := rfl
      simp only [hzero, zpow_zero, mul_one]
      rw [readPointed_pointed]
      congr 2
      omega
    · rw [if_neg hexp, cut_append hE]
      simp only [readInt_signed]
      rw [readPointed_pointed, mul_assoc, ← zpow_add₀ (by norm_num)]
      congr 2
      omega
  cases hneg : d.negative with
  | false =>
    obtain ⟨c, text, hhead, hc⟩ := pointed_head d.coeff dotplace
    rw [hhead] at hunsigned ⊢
    rw [minus, if_neg (by decide), List.nil_append, List.cons_append, read]
    · rw [← List.cons_append, hunsigned, value, hneg, sign, if_neg (by decide)]
      norm_num
    · rintro text' he
      exact hc (List.cons.inj he).1
  | true =>
    rw [minus, if_pos rfl, List.singleton_append, List.cons_append, read, hunsigned, value, hneg, sign, if_pos rfl]
    norm_num

end Reading

section Rounding

/-- What 28 digits keep of a coefficient. -/
def keptCoeff (n : Nat) : Nat :=
  let excess := (digits n).length - prec
  if excess = 0 then n else roundHalfEven n (10 ^ excess) * 10 ^ excess

theorem lt_pow_length (n : Nat) : n < 10 ^ (digits n).length :=
  (Nat.length_toDigits_le_iff (by decide) Nat.length_toDigits_pos).mp le_rfl

theorem keptCoeff_short {n : Nat} (h : n < 10 ^ prec) : keptCoeff n = n := by
  have hlen : (digits n).length ≤ prec := (Nat.length_toDigits_le_iff (by decide) (by decide)).mpr h
  have hexcess : (digits n).length - prec = 0 := by omega
  simp [keptCoeff, hexcess]

/-- Rounding up may take one digit more, and then gives a power of ten. -/
theorem roundHalfEven_le {n e : Nat} (h : n < 10 ^ (prec + e)) : roundHalfEven n (10 ^ e) ≤ 10 ^ prec := by
  have hdiv : n / 10 ^ e < 10 ^ prec := by
    rw [Nat.div_lt_iff_lt_mul (Nat.pow_pos (by decide)), ← pow_add]
    exact h
  unfold roundHalfEven
  split
  · exact hdiv
  · exact hdiv.le

theorem value_fix (d : PyDecimal) :
    (fix d).value = sign d.negative * (keptCoeff d.coeff : Rat) * (10 : Rat) ^ d.exp := by
  unfold fix keptCoeff
  by_cases hshort : (digits d.coeff).length - prec = 0
  · simp only [hshort, if_true, value]
  · simp only [hshort, if_false]
    generalize hexcess : (digits d.coeff).length - prec = excess at hshort
    have hlen : (digits d.coeff).length = prec + excess := by
      omega
    have hle : roundHalfEven d.coeff (10 ^ excess) ≤ 10 ^ prec :=
      roundHalfEven_le (hlen ▸ lt_pow_length d.coeff)
    by_cases hlt : roundHalfEven d.coeff (10 ^ excess) < 10 ^ prec
    · rw [if_pos hlt, value]
      push_cast
      rw [zpow_add₀ (by norm_num), zpow_natCast]
      ring
    · have heq : roundHalfEven d.coeff (10 ^ excess) = 10 ^ 27 * 10 := by
        have hpow : 10 ^ prec = 10 ^ 27 * 10 := rfl
        omega
      rw [if_neg hlt, heq, Nat.mul_div_cancel _ (by norm_num), value]
      push_cast
      rw [zpow_add₀ (by norm_num), zpow_add₀ (by norm_num), zpow_natCast, zpow_one]
      ring

theorem sign_mul_tdiv (negative : Bool) (m : Nat) :
    (sign negative * (m : Int)).tdiv 100 = sign negative * ((m / 100 : Nat) : Int) := by
  cases negative with
  | false => simp [sign]
  | true => simp [sign, Int.neg_tdiv]

/-- Equal fractions over `p` and over 100 have the same sign and the same integer part. -/
theorem hundredths_of_fraction {negative : Bool} {coeff p : Nat} {c : Int} (hp : 0 < p)
    (h : sign negative * (coeff : Int) * 100 = c * p) :
    ∃ m : Nat, c = sign negative * m ∧ coeff / p = m / 100 := by
  have hdiv : ∀ m : Nat, coeff * 100 = m * p → coeff / p = m / 100 := by
    intro m hm
    rw [← Nat.mul_div_mul_right coeff p (by decide : 0 < 100), hm, Nat.mul_comm p 100,
      Nat.mul_div_mul_right _ _ hp]
  have hp' : (0 : Int) < p := by
    exact_mod_cast hp
  cases negative with
  | false =>
    simp only [sign, Bool.false_eq_true, if_false, one_mul] at h ⊢
    have hc : 0 ≤ c := by
      by_contra hneg
      have : c * p < 0 := Int.mul_neg_of_neg_of_pos (by omega) hp'
      omega
    obtain ⟨m, rfl⟩ := Int.eq_ofNat_of_zero_le hc
    exact ⟨m, rfl, hdiv m (by exact_mod_cast h)⟩
  | true =>
    simp only [sign, if_true] at h ⊢
    have hc : c ≤ 0 := by
      by_contra hpos
      have : 0 < c * p := Int.mul_pos (by omega) hp'
      omega
    obtain ⟨m, hm⟩ := Int.eq_ofNat_of_zero_le (by omega : 0 ≤ -c)
    have hc' : c = -1 * (m : Int) := by
      omega
    refine ⟨m, hc', hdiv m ?_⟩
    rw [hc'] at h
    have h' : (coeff : Int) * 100 = m * p := by
      linarith
    exact_mod_cast h'

/-- The integer of a decimal is the quotient of its hundredths, towards zero. -/
theorem toInt_of_hundredths {d : PyDecimal} {c : Int} (h : d.value = c / 100) : d.toInt = c.tdiv 100 := by
  rw [value] at h
  unfold toInt
  by_cases hexp : 0 ≤ d.exp
  · obtain ⟨k, hk⟩ := Int.eq_ofNat_of_zero_le hexp
    rw [hk, zpow_natCast] at h
    have hc : c = 100 * (sign d.negative * ((d.coeff * 10 ^ k : Nat) : Int)) := by
      have hrat : (c : Rat) = 100 * (sign d.negative * ((d.coeff * 10 ^ k : Nat) : Int) : Int) := by
        push_cast
        linarith
      exact_mod_cast hrat
    rw [if_pos hexp, hk, Int.toNat_natCast, hc, Int.mul_tdiv_cancel_left _ (by decide)]
  · obtain ⟨k, hk⟩ := Int.eq_ofNat_of_zero_le (by omega : 0 ≤ -d.exp)
    have hexp' : d.exp = -(k : Int) := by
      omega
    rw [hexp', zpow_neg, zpow_natCast] at h
    have hpow : (10 : Rat) ^ k ≠ 0 := pow_ne_zero k (by norm_num)
    have hfrac : sign d.negative * (d.coeff : Int) * 100 = c * (10 ^ k : Nat) := by
      have hrat : (sign d.negative : Rat) * d.coeff * 100 = c * 10 ^ k := by
        field_simp at h
        linarith
      exact_mod_cast hrat
    obtain ⟨m, hm, hdiv⟩ := hundredths_of_fraction (Nat.pow_pos (by decide)) hfrac
    rw [if_neg hexp, hk, Int.toNat_natCast, hdiv, hm, sign_mul_tdiv]

end Rounding

end PyDecimal
