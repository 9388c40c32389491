import QOrder.Bills
import QOrder.ChannelNames

/-! The files that bills are written to: which bills get files of their own, directly inside
the directory of the bills. -/

namespace QOrder

open PyDecimal (digits)

variable {m n : Nat} {c : Char} {t t' : DateTime} {a b : BillData} {dir name name' : List Char}

/-- The time on the clock, to the second. -/
def DateTime.clock (t : DateTime) : List Nat := [t.year, t.month, t.day, t.hour, t.minute, t.second]

@[simp] theorem twoDigits_length (n : Nat) : (twoDigits n).length = 2 := rfl

theorem twoDigits_inj (hm : m < 100) (hn : n < 100) (h : twoDigits m = twoDigits n) : m = n := by
  simp only [twoDigits, List.cons.injEq, and_true] at h
  have htens := digitChar_inj (by omega) (by omega) h.1
  have hones := digitChar_inj (by omega) (by omega) h.2
  omega

theorem not_mem_twoDigits (hn : n < 100) (hc : c.isDigit = false) : c ∉ twoDigits n := by
  have htens : (Nat.digitChar (n / 10)).isDigit = true := by
    rw [Nat.isDigit_digitChar]
    exact decide_eq_true (by omega)
  have hones : (Nat.digitChar (n % 10)).isDigit = true := by
    rw [Nat.isDigit_digitChar]
    exact decide_eq_true (by omega)
  intro hmem
  simp only [twoDigits, List.mem_cons, List.not_mem_nil, or_false] at hmem
  rcases hmem with rfl | rfl
  · rw [htens] at hc
    cases hc
  · rw [hones] at hc
    cases hc

namespace DateTime

/-- The day, as the filename has it. -/
def date (t : DateTime) : List Char := digits t.year ++ twoDigits t.month ++ twoDigits t.day

def time (t : DateTime) : List Char := twoDigits t.hour ++ twoDigits t.minute ++ twoDigits t.second

theorem inFilename_eq (t : DateTime) : t.inFilename = t.date ++ '_' :: t.time := by
  simp [inFilename, date, time]

theorem not_mem_date (hc : c.isDigit = false) : c ∉ t.date := by
  have hmonth := t.month_range
  have hday := t.day_range
  simp only [date, List.mem_append, not_or]
  exact ⟨⟨PyDecimal.not_mem_digits hc, not_mem_twoDigits (by omega) hc⟩, not_mem_twoDigits (by omega) hc⟩

theorem not_mem_time (hc : c.isDigit = false) : c ∉ t.time := by
  have hhour := t.hour_range
  have hminute := t.minute_range
  have hsecond := t.second_range
  simp only [time, List.mem_append, not_or]
  exact ⟨⟨not_mem_twoDigits (by omega) hc, not_mem_twoDigits (by omega) hc⟩, not_mem_twoDigits (by omega) hc⟩

theorem date_inj (h : t.date = t'.date) : t.year = t'.year ∧ t.month = t'.month ∧ t.day = t'.day := by
  obtain ⟨hmonth, hmonth'⟩ := And.intro t.month_range t'.month_range
  obtain ⟨hday, hday'⟩ := And.intro t.day_range t'.day_range
  obtain ⟨hrest, hd⟩ := List.append_inj' h rfl
  obtain ⟨hy, hm⟩ := List.append_inj' hrest rfl
  refine ⟨?_, twoDigits_inj (by omega) (by omega) hm, twoDigits_inj (by omega) (by omega) hd⟩
  rw [← PyDecimal.readNat_digits t.year, hy, PyDecimal.readNat_digits]

theorem time_inj (h : t.time = t'.time) : t.hour = t'.hour ∧ t.minute = t'.minute ∧ t.second = t'.second := by
  obtain ⟨hhour, hhour'⟩ := And.intro t.hour_range t'.hour_range
  obtain ⟨hminute, hminute'⟩ := And.intro t.minute_range t'.minute_range
  obtain ⟨hsecond, hsecond'⟩ := And.intro t.second_range t'.second_range
  obtain ⟨hrest, hs⟩ := List.append_inj' h rfl
  obtain ⟨hh, hm⟩ := List.append_inj' hrest rfl
  exact ⟨twoDigits_inj (by omega) (by omega) hh, twoDigits_inj (by omega) (by omega) hm,
    twoDigits_inj (by omega) (by omega) hs⟩

theorem clock_eq_iff : t.clock = t'.clock ↔ t.date = t'.date ∧ t.time = t'.time := by
  constructor
  · intro h
    simp only [clock, List.cons.injEq, and_true] at h
    obtain ⟨hy, hm, hd, hh, hmin, hs⟩ := h
    simp [date, time, hy, hm, hd, hh, hmin, hs]
  · rintro ⟨hdate, htime⟩
    obtain ⟨hy, hm, hd⟩ := date_inj hdate
    obtain ⟨hh, hmin, hs⟩ := time_inj htime
    simp [clock, hy, hm, hd, hh, hmin, hs]

end DateTime

/-- Texts with one more separator after them are split again at the last one. -/
theorem append_cons_inj_of_last {x x' y y' : List Char} (hy : c ∉ y) (hy' : c ∉ y')
    (h : x ++ c :: y = x' ++ c :: y') : x = x' ∧ y = y' := by
  have hrev : y.reverse ++ c :: x.reverse = y'.reverse ++ c :: x'.reverse := by
    simpa using congrArg List.reverse h
  have hcut := congrArg (PyDecimal.cut c) hrev
  rw [PyDecimal.cut_append (by simpa using hy), PyDecimal.cut_append (by simpa using hy')] at hcut
  simpa [and_comm] using hcut

namespace PdfPrinter

theorem filename_eq_iff : filename a = filename b ↔ safeTable a = safeTable b ∧ a.closedAt.clock = b.closedAt.clock := by
  constructor
  · intro h
    simp only [filename, DateTime.inFilename_eq, List.append_assoc, List.cons_append] at h
    have hcut := List.append_cancel_left h
    have hlast : (safeTable a ++ '_' :: a.closedAt.date) ++ '_' :: (a.closedAt.time ++ ".pdf".toList) =
        (safeTable b ++ '_' :: b.closedAt.date) ++ '_' :: (b.closedAt.time ++ ".pdf".toList) := by
      simpa using hcut
    obtain ⟨hfirst, htime⟩ := List.append_inj' hlast rfl
    obtain ⟨hsafe, hdate⟩ := append_cons_inj_of_last (DateTime.not_mem_date rfl) (DateTime.not_mem_date rfl) hfirst
    refine ⟨hsafe, DateTime.clock_eq_iff.mpr ⟨hdate, ?_⟩⟩
    exact List.append_cancel_right (List.cons.inj htime).2
  · rintro ⟨hsafe, hclock⟩
    obtain ⟨hdate, htime⟩ := DateTime.clock_eq_iff.mp hclock
    simp [filename, DateTime.inFilename_eq, hsafe, hdate, htime]

theorem slash_mem_filename : '/' ∈ filename a ↔ '/' ∈ a.tableLabel.toList := by
  have hdate : '/' ∉ a.closedAt.date := DateTime.not_mem_date rfl
  have htime : '/' ∉ a.closedAt.time := DateTime.not_mem_time rfl
  have hsafe : '/' ∈ safeTable a ↔ '/' ∈ a.tableLabel.toList := by
    simp only [safeTable, replaceChar, List.mem_map]
    constructor
    · rintro ⟨c, hc, he⟩
      by_cases hspace : c = ' '
      · rw [if_pos hspace] at he
        exact absurd he (by decide)
      · rw [if_neg hspace] at he
        exact he ▸ hc
    · intro h
      exact ⟨'/', h, rfl⟩
  simp [filename, DateTime.inFilename_eq, hsafe, hdate, htime]

theorem joinPath_inj : joinPath dir name = joinPath dir name' ↔ name = name' := by
  unfold joinPath
  by_cases h : dir = [] ∨ dir.getLast? = some '/'
  · rw [if_pos h, if_pos h, List.append_cancel_left_eq]
  · rw [if_neg h, if_neg h, List.append_cancel_left_eq, List.cons.injEq, and_iff_right rfl]

/-- The path is that of a file in the directory itself. -/
def DirectlyInside (dir path : String) : Prop :=
  ∃ name, '/' ∉ name ∧ name ∉ [[], ['.'], ['.', '.']] ∧ path = String.ofList (joinPath dir.toList name)

theorem directlyInside_iff {dir : String} : DirectlyInside dir (pdfPath dir a) ↔ '/' ∉ a.tableLabel.toList := by
  rw [← not_congr slash_mem_filename]
  constructor
  · rintro ⟨name, hname, -, hpath⟩
    rw [pdfPath, String.ofList_inj, joinPath_inj] at hpath
    exact hpath ▸ hname
  · intro h
    refine ⟨filename a, h, ?_, rfl⟩
    simp [filename]

/-- Two bills get files of their own in the directory exactly if their labels have no
separator and stay apart as parts of a filename, or the bills are of two seconds. -/
theorem bill_files_apart {dir : String} : (pdfPath dir a ≠ pdfPath dir b ∧
      DirectlyInside dir (pdfPath dir a) ∧ DirectlyInside dir (pdfPath dir b)) ↔
    (safeTable a ≠ safeTable b ∨ a.closedAt.clock ≠ b.closedAt.clock) ∧
      '/' ∉ a.tableLabel.toList ∧ '/' ∉ b.tableLabel.toList := by
  rw [directlyInside_iff, directlyInside_iff, ← not_and_or, ← filename_eq_iff]
  apply and_congr_left'
  rw [Ne, pdfPath, pdfPath, String.ofList_inj, joinPath_inj]

/-- Another restaurant closes a table of the same label in the same second. -/
def bunBill : BillData := { phoBill with restaurantName := "Bún chả 36" }

theorem bill_files_collide : ¬ ∀ (dir : String) (a b : BillData),
    a.restaurantName ≠ b.restaurantName ∨ a.tableLabel ≠ b.tableLabel ∨ a.closedAt.clock ≠ b.closedAt.clock →
      pdfPath dir a ≠ pdfPath dir b ∧ DirectlyInside dir (pdfPath dir a) ∧ DirectlyInside dir (pdfPath dir b) := by
  intro h
  have hdiffer : phoBill.restaurantName ≠ bunBill.restaurantName := by
    decide
  exact (h "/tmp/qorder_bills" phoBill bunBill (.inl hdiffer)).1 rfl

end PdfPrinter

end QOrder
