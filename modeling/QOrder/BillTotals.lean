import Mathlib.Algebra.BigOperators.Ring.Finset
import Mathlib.Algebra.Order.BigOperators.Group.List
import QOrder.Bills

/-! The amounts on a printed bill, read back: when the lines add up to the total. -/

namespace QOrder

open PyDecimal (digits keptCoeff sign)

/-- The number in the text of a price. -/
def readPrice (currency : String) (text : List Char) : Rat :=
  if currency = "VND" then PyDecimal.readInt ((PyDecimal.cut 'đ' text).1.filter (· ≠ '.'))
  else PyDecimal.read (PyDecimal.cut ' ' text).1

section Reading

variable {n : Int} {c : Char} {d : PyDecimal} {text : List Char} {currency : String}

theorem thousands_filter (h : ',' ∉ text) : (thousands text).filter (· ≠ ',') = text := by
  induction text using thousands.induct with
  | case1 a b c d text ih =>
    simp only [List.mem_cons, not_or] at h
    obtain ⟨ha, hb, hc, hrest⟩ := h
    have htail := ih (by simpa using hrest)
    rw [thousands, List.filter_cons_of_pos (by simpa using Ne.symm ha),
      List.filter_cons_of_pos (by simpa using Ne.symm hb), List.filter_cons_of_pos (by simpa using Ne.symm hc),
      List.filter_cons_of_neg (by decide), htail]
  | case2 text hshort =>
    have hall : ∀ c ∈ text, decide (c ≠ ',') = true := by
      rintro c hc
      exact decide_eq_true fun he => h (he ▸ hc)
    rw [thousands]
    · exact List.filter_eq_self.mpr hall
    · exact hshort

theorem mem_thousands (h : c ∈ thousands text) : c = ',' ∨ c ∈ text := by
  induction text using thousands.induct with
  | case1 a b d e text ih =>
    simp only [thousands, List.mem_cons] at h ih ⊢
    tauto
  | case2 text hshort =>
    rw [thousands] at h
    · exact .inr h
    · exact hshort

/-- The number with its separators has digits, commas and the sign. -/
theorem not_mem_withThousands (hdigit : c.isDigit = false) (hcomma : c ≠ ',') (hminus : c ≠ '-') :
    c ∉ withThousands n := by
  intro h
  simp only [withThousands, List.mem_append, List.mem_reverse] at h
  rcases h with h | h
  · unfold PyDecimal.minus at h
    split at h
    · simp [hminus] at h
    · simp at h
  · rcases mem_thousands h with h | h
    · exact hcomma h
    · exact PyDecimal.not_mem_digits hdigit (List.mem_reverse.mp h)

theorem replaceChar_filter {a b : Char} (hb : b ∉ text) :
    (replaceChar a b text).filter (· ≠ b) = text.filter (· ≠ a) := by
  induction text with
  | nil => rfl
  | cons c text ih =>
    simp only [List.mem_cons, not_or] at hb
    have htail := ih hb.2
    by_cases hc : c = a
    · rw [replaceChar, List.map_cons, if_pos hc, List.filter_cons_of_neg (by simp),
        List.filter_cons_of_neg (by simpa using hc)]
      exact htail
    · rw [replaceChar, List.map_cons, if_neg hc, List.filter_cons_of_pos (by simpa using Ne.symm hb.1),
        List.filter_cons_of_pos (by simpa using hc)]
      exact congrArg (c :: ·) htail

theorem withThousands_filter (n : Int) :
    (withThousands n).filter (· ≠ ',') = PyDecimal.minus (decide (n < 0)) ++ digits n.natAbs := by
  have hcomma : ',' ∉ (digits n.natAbs).reverse := by
    simpa using PyDecimal.not_mem_digits (c := ',') rfl
  have hminus : (PyDecimal.minus (decide (n < 0))).filter (· ≠ ',') = PyDecimal.minus (decide (n < 0)) := by
    unfold PyDecimal.minus
    split <;> rfl
  rw [withThousands, List.filter_append, List.filter_reverse, thousands_filter hcomma, List.reverse_reverse, hminus]

theorem readInt_minus (n : Int) : PyDecimal.readInt (PyDecimal.minus (decide (n < 0)) ++ digits n.natAbs) = n := by
  by_cases h : n < 0
  · have hread := PyDecimal.readInt_signed n
    rw [PyDecimal.signed, if_pos h] at hread
    simpa [PyDecimal.minus, h] using hread
  · obtain ⟨c, text, hcons⟩ := List.exists_cons_of_ne_nil (Nat.toDigits_ne_nil (n := n.natAbs) (b := 10))
    have hdigits : digits n.natAbs = c :: text := hcons
    have hsign : ∀ s : Char, s.isDigit = false → c ≠ s := by
      rintro s hs rfl
      exact PyDecimal.not_mem_digits (n := n.natAbs) hs (hdigits ▸ List.mem_cons_self)
    have hnat := PyDecimal.readNat_digits n.natAbs
    rw [PyDecimal.minus, if_neg (by simpa using h), List.nil_append]
    rw [hdigits] at hnat ⊢
    rw [PyDecimal.readInt]
    · omega
    · rintro text' he
      exact hsign '-' rfl (List.cons.inj he).1
    · rintro text' he
      exact hsign '+' rfl (List.cons.inj he).1

/-- The price of a VND bill is read back as the integer that was printed. -/
theorem readPrice_vnd : readPrice "VND" (replaceChar ',' '.' (withThousands n ++ ['đ'])) = n := by
  have hmark : 'đ' ∉ replaceChar ',' '.' (withThousands n) := by
    simp only [replaceChar, List.mem_map, not_exists, not_and]
    intro c hc he
    by_cases hcomma : c = ','
    · rw [if_pos hcomma] at he
      exact absurd he (by decide)
    · rw [if_neg hcomma] at he
      exact not_mem_withThousands (n := n) rfl (by decide) (by decide) (he ▸ hc)
  have happend : replaceChar ',' '.' (withThousands n ++ ['đ']) = replaceChar ',' '.' (withThousands n) ++ ['đ'] := by
    rw [replaceChar, List.map_append]
    rfl
  rw [readPrice, if_pos rfl, happend, PyDecimal.cut_append hmark, replaceChar_filter, withThousands_filter,
    readInt_minus]
  exact not_mem_withThousands rfl (by decide) (by decide)

theorem readPrice_decimal (h : currency ≠ "VND") : readPrice currency (d.str ++ ' ' :: currency.toList) = d.value := by
  rw [readPrice, if_neg h, PyDecimal.cut_append PyDecimal.space_not_mem_str, PyDecimal.read_str]

/-- A price of the bill, read back: an integer for VND, else the exact amount. -/
theorem readPrice_formatPrice (d : PyDecimal) (currency : String) :
    readPrice currency (EscposPrinter.formatPrice d currency).toList =
      if currency = "VND" then (d.toInt : Rat) else d.value := by
  unfold EscposPrinter.formatPrice
  by_cases h : currency = "VND"
  · subst h
    rw [if_pos rfl, if_pos rfl, String.toList_ofList, readPrice_vnd]
  · have hspace : (String.ofList d.str ++ " " ++ currency).toList = d.str ++ ' ' :: currency.toList := by
      simp
    rw [if_neg h, if_neg h, hspace, readPrice_decimal h]

end Reading

/-- What the context keeps of an amount in hundredths. -/
def keptCents (cents : Int) : Int := if cents < 0 then -(keptCoeff cents.natAbs : Int) else keptCoeff cents.natAbs

/-- The hundredths of an amount that its line does not show. -/
def droppedCents (currency : String) (cents : Int) : Int :=
  cents - keptCents cents + if currency = "VND" then (keptCents cents).tmod 100 else 0

def BillItem.amount (item : BillItem) : Rat := item.unitPrice.value * (item.quantity : Rat)

/-- The amount of an item whose price has two decimals, in hundredths. -/
def BillItem.cents (item : BillItem) : Int := sign item.unitPrice.negative * item.unitPrice.coeff * item.quantity

namespace BillData

def cents (bill : BillData) : Int := (bill.items.map BillItem.cents).sum

def dropped (bill : BillData) : Int := (bill.items.map fun item => droppedCents bill.currency item.cents).sum

/-- The lines, as they are read on the receipt and on the page, add up to the total there. -/
structure AddsUp (bill : BillData) : Prop where
  receipt : (bill.items.map fun item => readPrice bill.currency (EscposPrinter.linePrice bill item).toList).sum =
    readPrice bill.currency (EscposPrinter.total bill).toList
  page : (bill.items.map fun item => readPrice bill.currency (PdfPrinter.linePrice bill item).toList).sum =
    readPrice bill.currency (PdfPrinter.total bill).toList

/-- In VND, what the lines drop is less than one đồng, and has the sign of the total; in
another currency the lines drop nothing on the whole. -/
def DropsLittle (bill : BillData) : Prop :=
  if bill.currency = "VND" then
    (0 ≤ bill.cents ∧ 0 ≤ bill.dropped ∧ bill.dropped < 100) ∨ (bill.cents ≤ 0 ∧ -100 < bill.dropped ∧ bill.dropped ≤ 0)
  else bill.dropped = 0

end BillData

section Lines

variable {item : BillItem} {bill : BillData} {c s : Int}

theorem keptCents_sign (negative : Bool) (m : Nat) :
    keptCents (sign negative * m) = sign negative * keptCoeff m := by
  have hzero : keptCoeff 0 = 0 := rfl
  cases negative with
  | false => simp [keptCents, sign]
  | true =>
    by_cases hm : m = 0
    · simp [keptCents, sign, hm, hzero]
    · simp [keptCents, sign, Nat.pos_of_ne_zero hm]

theorem keptCents_short (h : c.natAbs < 10 ^ PyDecimal.prec) : keptCents c = c := by
  rw [keptCents, PyDecimal.keptCoeff_short h]
  split <;> omega

/-- The signs of a price and of a quantity make the sign of the line. -/
theorem cents_eq (item : BillItem) : item.cents =
    sign (item.unitPrice.negative != decide (item.quantity < 0)) * (item.unitPrice.coeff * item.quantity.natAbs : Nat) := by
  unfold BillItem.cents
  by_cases hq : item.quantity < 0
  · have habs : (item.quantity.natAbs : Int) = -item.quantity := by
      omega
    cases item.unitPrice.negative <;> simp [hq, sign, habs]
  · have habs : (item.quantity.natAbs : Int) = item.quantity := by
      omega
    cases item.unitPrice.negative <;> simp [hq, sign, habs]

theorem lineTotal_value (h : item.unitPrice.exp = -2) : item.lineTotal.value = keptCents item.cents / 100 := by
  rw [cents_eq, keptCents_sign, BillItem.lineTotal, PyDecimal.mul, PyDecimal.value_fix]
  simp only [PyDecimal.ofInt, h]
  push_cast
  norm_num
  ring

theorem amount_eq (h : item.unitPrice.exp = -2) : item.amount = (item.cents : Rat) / 100 := by
  rw [BillItem.amount, PyDecimal.value, h, BillItem.cents]
  push_cast
  norm_num
  ring

/-- A quotient towards zero leaves a remainder of the sign of the dividend. -/
theorem eq_tdiv_iff : s = c.tdiv 100 ↔
    (0 ≤ c ∧ 0 ≤ c - 100 * s ∧ c - 100 * s < 100) ∨ (c ≤ 0 ∧ -100 < c - 100 * s ∧ c - 100 * s ≤ 0) := by
  by_cases hc : 0 ≤ c
  · rw [Int.tdiv_eq_ediv_of_nonneg hc]
    omega
  · have hneg : c.tdiv 100 = -((-c) / 100) := by
      rw [← Int.tdiv_eq_ediv_of_nonneg (by omega), Int.neg_tdiv, neg_neg]
    rw [hneg]
    omega

theorem sum_div (f : BillItem → Int) (items : List BillItem) :
    (items.map fun item => (f item : Rat) / 100).sum = ((items.map f).sum : Int) / 100 := by
  induction items with
  | nil => simp
  | cons item items ih =>
    simp only [List.map_cons, List.sum_cons, ih]
    push_cast
    ring

theorem dropped_vnd (h : bill.currency = "VND") :
    bill.dropped = bill.cents - 100 * (bill.items.map fun item => (keptCents item.cents).tdiv 100).sum := by
  have hitem : ∀ c : Int, droppedCents bill.currency c = c - 100 * (keptCents c).tdiv 100 := by
    intro c
    have hdiv := Int.mul_tdiv_add_tmod (keptCents c) 100
    rw [droppedCents, if_pos h]
    omega
  simp only [BillData.dropped, BillData.cents, hitem]
  induction bill.items with
  | nil => rfl
  | cons item items ih =>
    simp only [List.map_cons, List.sum_cons, ih]
    ring

theorem dropped_decimal (h : bill.currency ≠ "VND") :
    bill.dropped = bill.cents - (bill.items.map fun item => keptCents item.cents).sum := by
  have hitem : ∀ c : Int, droppedCents bill.currency c = c - keptCents c := by
    intro c
    rw [droppedCents, if_neg h, add_zero]
  simp only [BillData.dropped, BillData.cents, hitem]
  induction bill.items with
  | nil => rfl
  | cons item items ih =>
    simp only [List.map_cons, List.sum_cons, ih]
    ring

/-- The sums of the lines of one printer; the other formats its prices alike. -/
theorem lines_sum (hprices : ∀ item ∈ bill.items, item.unitPrice.exp = -2) :
    (bill.items.map fun item => readPrice bill.currency (EscposPrinter.linePrice bill item).toList).sum =
      if bill.currency = "VND" then (((bill.items.map fun item => (keptCents item.cents).tdiv 100).sum : Int) : Rat)
      else ((bill.items.map fun item => keptCents item.cents).sum : Int) / 100 := by
  have hline : ∀ item ∈ bill.items, readPrice bill.currency (EscposPrinter.linePrice bill item).toList =
      if bill.currency = "VND" then (((keptCents item.cents).tdiv 100 : Int) : Rat)
      else (keptCents item.cents : Rat) / 100 := by
    intro item hitem
    have hvalue := lineTotal_value (hprices item hitem)
    rw [EscposPrinter.linePrice, readPrice_formatPrice, PyDecimal.toInt_of_hundredths hvalue, hvalue]
  rw [List.map_congr_left hline]
  by_cases h : bill.currency = "VND"
  · simp only [if_pos h]
    rw [Int.cast_list_sum, List.map_map]
    rfl
  · simp only [if_neg h]
    exact sum_div (fun item => keptCents item.cents) bill.items

theorem total_value (hprices : ∀ item ∈ bill.items, item.unitPrice.exp = -2)
    (htotal : bill.totalAmount.value = (bill.items.map BillItem.amount).sum) :
    bill.totalAmount.value = (bill.cents : Rat) / 100 := by
  rw [htotal, List.map_congr_left fun item hitem => amount_eq (hprices item hitem)]
  exact sum_div BillItem.cents bill.items

/-- The lines of a bill add up to its total exactly if they drop little. -/
theorem lines_add_up (hprices : ∀ item ∈ bill.items, item.unitPrice.exp = -2)
    (htotal : bill.totalAmount.value = (bill.items.map BillItem.amount).sum) :
    bill.AddsUp ↔ bill.DropsLittle := by
  have hvalue := total_value hprices htotal
  have hreads : readPrice bill.currency (EscposPrinter.total bill).toList =
      if bill.currency = "VND" then ((bill.cents.tdiv 100 : Int) : Rat) else (bill.cents : Rat) / 100 := by
    rw [EscposPrinter.total, readPrice_formatPrice, PyDecimal.toInt_of_hundredths hvalue, hvalue]
  have hboth : bill.AddsUp ↔
      (bill.items.map fun item => readPrice bill.currency (EscposPrinter.linePrice bill item).toList).sum =
        readPrice bill.currency (EscposPrinter.total bill).toList :=
    ⟨fun h => h.receipt, fun h => ⟨h, h⟩⟩
  rw [hboth, lines_sum hprices, hreads, BillData.DropsLittle]
  by_cases h : bill.currency = "VND"
  · rw [if_pos h, if_pos h, if_pos h, Int.cast_inj, eq_tdiv_iff, dropped_vnd h]
  · rw [if_neg h, if_neg h, if_neg h, dropped_decimal h, div_left_inj' (by norm_num), Int.cast_inj]
    omega

theorem coinBill_prices : ∀ item ∈ coinBill.items, item.unitPrice.exp = -2 := by
  decide

theorem coinBill_total : coinBill.totalAmount.value = (coinBill.items.map BillItem.amount).sum := by
  decide +kernel

/-- One line shows half a đồng less than the amount. -/
def teaBill : BillData := { phoBill with
  items := [⟨"Phở bò tái", 2, ⟨false, 5500000, -2⟩⟩, ⟨"Trà đá", 1, ⟨false, 350050, -2⟩⟩]
  totalAmount := ⟨false, 11350050, -2⟩ }

theorem lines_add_up_tea : teaBill.dropped = 50 ∧ teaBill.AddsUp := by
  refine ⟨by decide +kernel, (lines_add_up (by decide) (by decide +kernel)).mpr ?_⟩
  unfold BillData.DropsLittle
  decide +kernel

/-- The lines of the two items show 0đ each, below a total of 1đ. -/
theorem lines_add_up_fails : ¬ ∀ bill : BillData, (∀ item ∈ bill.items, item.unitPrice.exp = -2) →
    bill.totalAmount.value = (bill.items.map BillItem.amount).sum → bill.AddsUp := by
  intro h
  have hadds := (h coinBill coinBill_prices coinBill_total).receipt
  revert hadds
  decide +kernel

/-- Where no amount is negative or of more than 28 digits, only the lines of a VND bill drop
anything: what is left of them modulo one đồng. -/
theorem lines_add_up_short
    (hshort : ∀ item ∈ bill.items, 0 ≤ item.cents ∧ item.cents.natAbs < 10 ^ PyDecimal.prec) :
    bill.DropsLittle ↔ (bill.currency = "VND" → (bill.items.map fun item => item.cents % 100).sum < 100) := by
  have hkept : ∀ item ∈ bill.items, keptCents item.cents = item.cents := by
    intro item hitem
    exact keptCents_short (hshort item hitem).2
  rw [BillData.DropsLittle]
  by_cases h : bill.currency = "VND"
  · have hdropped : bill.dropped = (bill.items.map fun item => item.cents % 100).sum := by
      refine congrArg List.sum (List.map_congr_left fun item hitem => ?_)
      rw [droppedCents, if_pos h, hkept item hitem, Int.tmod_eq_emod_of_nonneg (hshort item hitem).1]
      omega
    have hcents : 0 ≤ bill.cents := by
      refine List.sum_nonneg fun c hc => ?_
      obtain ⟨item, hitem, rfl⟩ := List.mem_map.mp hc
      exact (hshort item hitem).1
    have hnonneg : 0 ≤ bill.dropped := by
      rw [hdropped]
      refine List.sum_nonneg fun c hc => ?_
      obtain ⟨item, -, rfl⟩ := List.mem_map.mp hc
      exact Int.emod_nonneg _ (by decide)
    rw [if_pos h, ← hdropped]
    constructor
    · intro hlittle _
      omega
    · intro hlt
      exact .inl ⟨hcents, hnonneg, hlt h⟩
  · rw [if_neg h, iff_true_right fun he => absurd he h]
    refine List.sum_eq_zero fun c hc => ?_
    obtain ⟨item, hitem, rfl⟩ := List.mem_map.mp hc
    rw [droppedCents, if_neg h, hkept item hitem]
    omega

end Lines

end QOrder
