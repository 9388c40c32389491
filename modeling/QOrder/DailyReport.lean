import Mathlib.Algebra.BigOperators.Ring.Finset
import Mathlib.Data.List.Sort
import QOrder.Binary64
import QOrder.Schema

/-! The revenue rows of the report, by the days of the database's session, and the days of
the restaurant's own timezone. -/

namespace QOrder

/-- In microseconds. -/
def dayLength : Int := 86400000000

/-- The calendar day of an instant, at an offset from UTC. -/
def dayAt (offset : Int) (t : Timestamp) : Int := (t + offset) / dayLength

structure RevenueRow where
  day : Int
  revenue : Rat
  sessions : Nat
  deriving DecidableEq, Repr

/-- The clock of the process, the zone of its `date.today()`, and the one in which the driver
takes a date for an instant. -/
structure ReportClock where
  now : Timestamp
  processOffset : Int
  driverOffset : Int

def ReportClock.since (clock : ReportClock) : Int := dayAt clock.processOffset clock.now - 30

def ReportClock.sinceInstant (clock : ReportClock) : Timestamp :=
  clock.since * dayLength - clock.driverOffset

def closedSessions (sessions : List TableSession) (restaurantId : Uuid) : List TableSession :=
  sessions.filter fun s => s.restaurantId = restaurantId ∧ s.status = .closed ∧ s.closedAt.isSome

namespace TableSession

def closed (s : TableSession) : Timestamp := s.closedAt.getD 0

/-- `closed_at::date`, in a session at the offset. -/
def closedDay (offset : Int) (s : TableSession) : Int := dayAt offset s.closed

end TableSession

/-- `SUM(total_amount)`, which is null without an amount. -/
def sumAmounts (group : List TableSession) : Option Money :=
  if group.filterMap TableSession.totalAmount = [] then none
  else some (group.filterMap TableSession.totalAmount).sum

/-- `float` of an amount in hundredths. -/
def floatOf (amount : Money) : Rat := amount.sign * Binary64.ofFraction amount.natAbs 100

/-- `float(r["revenue"]) if r["revenue"] else 0` -/
def revenueOf : Option Money → Rat
  | none => 0
  | some amount => if amount = 0 then 0 else floatOf amount

section Report

variable (sessions : List TableSession) (restaurantId : Uuid) (clock : ReportClock)

def inWindow : List TableSession :=
  (closedSessions sessions restaurantId).filter fun s => clock.sinceInstant ≤ s.closed

/-- The group of the day. -/
def counted (day : Int) : List TableSession :=
  (inWindow sessions restaurantId clock).filter fun s => s.closedDay 0 = day

def reportedDays : List Int :=
  (((inWindow sessions restaurantId clock).map (TableSession.closedDay 0)).dedup).insertionSort (· ≤ ·)

def revenueRow (day : Int) : RevenueRow :=
  ⟨day, revenueOf (sumAmounts (counted sessions restaurantId clock day)),
    (counted sessions restaurantId clock day).length⟩

def revenueData : List RevenueRow :=
  (reportedDays sessions restaurantId clock).map (revenueRow sessions restaurantId clock)

/-- The sessions of a day of the restaurant. -/
def localSessions (offset day : Int) : List TableSession :=
  (closedSessions sessions restaurantId).filter fun s => s.closedDay offset = day

def total (group : List TableSession) : Money := (group.map fun s => s.totalAmount.getD 0).sum

/-- The first day of the window. -/
def firstDay (offset : Int) : Int := dayAt offset clock.now - 30

/-- The rows are the days of the restaurant in the window, each with exactly its sessions. -/
structure ReportsDays (offset : Int) : Prop where
  days : ∀ day, day ∈ (revenueData sessions restaurantId clock).map RevenueRow.day ↔
    firstDay clock offset ≤ day ∧ localSessions sessions restaurantId offset day ≠ []
  once : ((revenueData sessions restaurantId clock).map RevenueRow.day).Nodup
  counted : ∀ s ∈ closedSessions sessions restaurantId, ∀ day, s ∈ counted sessions restaurantId clock day ↔
    firstDay clock offset ≤ day ∧ s.closedDay offset = day
  revenue : ∀ row ∈ revenueData sessions restaurantId clock,
    row.revenue = (total (localSessions sessions restaurantId offset row.day) : Rat) / 100
  sessions : ∀ row ∈ revenueData sessions restaurantId clock,
    row.sessions = (localSessions sessions restaurantId offset row.day).length

/-- The offset takes no session over midnight or the start of the window, and no day's sum
has more bits than a float. -/
structure SameDays (offset : Int) : Prop where
  window : ∀ s ∈ closedSessions sessions restaurantId,
    clock.sinceInstant ≤ s.closed ↔ firstDay clock offset ≤ s.closedDay offset
  midnight : ∀ s ∈ closedSessions sessions restaurantId, clock.sinceInstant ≤ s.closed →
    0 ≤ s.closed % dayLength + offset ∧ s.closed % dayLength + offset < dayLength
  exact : ∀ s ∈ closedSessions sessions restaurantId, clock.sinceInstant ≤ s.closed →
    Binary64.Exact (total (localSessions sessions restaurantId offset (s.closedDay offset))).natAbs 100

end Report

section Sums

variable {group : List TableSession} {amount : Money}

theorem sumAmounts_getD (group : List TableSession) : (sumAmounts group).getD 0 = total group := by
  have hsum : (group.filterMap TableSession.totalAmount).sum = total group := by
    unfold total
    induction group with
    | nil => rfl
    | cons s group ih =>
      cases h : s.totalAmount with
      | none => simp [h, ih]
      | some amount => simp [h, ih]
  unfold sumAmounts
  by_cases hnil : group.filterMap TableSession.totalAmount = []
  · rw [if_pos hnil, ← hsum, hnil]
    rfl
  · rw [if_neg hnil, ← hsum]
    rfl

theorem floatOf_eq_iff (h : amount ≠ 0) : floatOf amount = (amount : Rat) / 100 ↔ Binary64.Exact amount.natAbs 100 := by
  have hsign : ((amount.sign : Int) : Rat) ≠ 0 := by
    exact_mod_cast mt Int.sign_eq_zero_iff_zero.mp h
  have habs : (amount : Rat) = (amount.sign : Rat) * (amount.natAbs : Nat) := by
    rw [← Int.cast_natCast, ← Int.cast_mul, Int.sign_mul_natAbs]
  rw [← Binary64.ofFraction_eq_iff (by decide), floatOf, habs, mul_div_assoc, mul_right_inj' hsign]
  rfl

theorem revenueOf_eq_iff (revenue : Option Money) :
    revenueOf revenue = ((revenue.getD 0 : Int) : Rat) / 100 ↔ Binary64.Exact (revenue.getD 0).natAbs 100 := by
  have hzero : Binary64.Exact 0 100 := ⟨0, 0, by decide, by simp⟩
  cases revenue with
  | none => simpa [revenueOf] using hzero
  | some amount =>
    by_cases h : amount = 0
    · subst h
      simpa [revenueOf] using hzero
    · rw [revenueOf, if_neg h]
      exact floatOf_eq_iff h

end Sums

section Days

variable {sessions : List TableSession} {restaurantId : Uuid} {clock : ReportClock} {offset day : Int}
  {s : TableSession}

theorem mem_counted : s ∈ counted sessions restaurantId clock day ↔
    s ∈ closedSessions sessions restaurantId ∧ clock.sinceInstant ≤ s.closed ∧ s.closedDay 0 = day := by
  simp only [counted, inWindow, List.mem_filter, decide_eq_true_eq, and_assoc]

theorem mem_localSessions : s ∈ localSessions sessions restaurantId offset day ↔
    s ∈ closedSessions sessions restaurantId ∧ s.closedDay offset = day := by
  simp [localSessions]

theorem revenueData_days : (revenueData sessions restaurantId clock).map RevenueRow.day =
    reportedDays sessions restaurantId clock := by
  rw [revenueData, List.map_map]
  exact List.map_id _

theorem mem_reportedDays : day ∈ reportedDays sessions restaurantId clock ↔
    ∃ s, s ∈ counted sessions restaurantId clock day := by
  rw [reportedDays, List.mem_insertionSort, List.mem_dedup, List.mem_map]
  constructor
  · rintro ⟨s, hs, hday⟩
    exact ⟨s, List.mem_filter.mpr ⟨hs, decide_eq_true hday⟩⟩
  · rintro ⟨s, hs⟩
    obtain ⟨hs, hday⟩ := List.mem_filter.mp hs
    exact ⟨s, hs, of_decide_eq_true hday⟩

theorem reportedDays_nodup : (reportedDays sessions restaurantId clock).Nodup :=
  (List.perm_insertionSort _ _).nodup_iff.mpr (List.nodup_dedup _)

/-- An offset that stays within the day keeps the day. -/
theorem closedDay_eq_iff : s.closedDay offset = s.closedDay 0 ↔
    0 ≤ s.closed % dayLength + offset ∧ s.closed % dayLength + offset < dayLength := by
  have hday : ∀ t : Int, (t + offset) / 86400000000 = (t + 0) / 86400000000 ↔
      0 ≤ t % 86400000000 + offset ∧ t % 86400000000 + offset < 86400000000 := by
    intro t
    omega
  exact hday s.closed

/-- A group by the database's days is one by the restaurant's exactly if no session changes
its day or crosses the start of the window. -/
theorem counted_local_iff :
    (∀ s ∈ closedSessions sessions restaurantId, ∀ day, s ∈ counted sessions restaurantId clock day ↔
      firstDay clock offset ≤ day ∧ s.closedDay offset = day) ↔
    (∀ s ∈ closedSessions sessions restaurantId,
      clock.sinceInstant ≤ s.closed ↔ firstDay clock offset ≤ s.closedDay offset) ∧
    ∀ s ∈ closedSessions sessions restaurantId, clock.sinceInstant ≤ s.closed →
      s.closedDay offset = s.closedDay 0 := by
  constructor
  · intro h
    refine ⟨fun s hs => ⟨fun hsince => ?_, fun hfirst => ?_⟩, fun s hs hsince => ?_⟩
    · obtain ⟨hfirst, hday⟩ := (h s hs (s.closedDay 0)).mp (mem_counted.mpr ⟨hs, hsince, rfl⟩)
      rwa [hday]
    · exact (mem_counted.mp ((h s hs (s.closedDay offset)).mpr ⟨hfirst, rfl⟩)).2.1
    · exact ((h s hs (s.closedDay 0)).mp (mem_counted.mpr ⟨hs, hsince, rfl⟩)).2
  · rintro ⟨hwindow, hdays⟩ s hs day
    rw [mem_counted]
    constructor
    · rintro ⟨-, hsince, rfl⟩
      have hfirst := (hwindow s hs).mp hsince
      have hday := hdays s hs hsince
      exact ⟨hday ▸ hfirst, hday⟩
    · rintro ⟨hfirst, rfl⟩
      have hsince := (hwindow s hs).mpr hfirst
      exact ⟨hs, hsince, (hdays s hs hsince).symm⟩

/-- Then the groups of the days in the window are the same lists. -/
theorem counted_eq_local (hcounted : ∀ s ∈ closedSessions sessions restaurantId, ∀ day,
      s ∈ counted sessions restaurantId clock day ↔ firstDay clock offset ≤ day ∧ s.closedDay offset = day)
    (hday : firstDay clock offset ≤ day) :
    counted sessions restaurantId clock day = localSessions sessions restaurantId offset day := by
  rw [counted, inWindow, List.filter_filter, localSessions]
  refine List.filter_congr fun s hs => ?_
  have hiff := hcounted s hs day
  rw [mem_counted] at hiff
  simp only [hs, true_and, hday] at hiff
  rw [← decide_eq_decide.mpr hiff, Bool.decide_and, Bool.and_comm]

end Days

section Correct

variable {sessions : List TableSession} {restaurantId : Uuid} {clock : ReportClock} {offset day : Int}

/-- The rows of days that are the restaurant's, up to the float. -/
theorem rows_local (hcounted : ∀ s ∈ closedSessions sessions restaurantId, ∀ day,
      s ∈ counted sessions restaurantId clock day ↔ firstDay clock offset ≤ day ∧ s.closedDay offset = day) :
    day ∈ reportedDays sessions restaurantId clock ↔
      firstDay clock offset ≤ day ∧ localSessions sessions restaurantId offset day ≠ [] := by
  rw [mem_reportedDays]
  constructor
  · rintro ⟨s, hs⟩
    have hclosed := (mem_counted.mp hs).1
    obtain ⟨hfirst, hday⟩ := (hcounted s hclosed day).mp hs
    exact ⟨hfirst, List.ne_nil_of_mem (mem_localSessions.mpr ⟨hclosed, hday⟩)⟩
  · rintro ⟨hfirst, hne⟩
    obtain ⟨s, hs⟩ := List.exists_mem_of_ne_nil _ hne
    obtain ⟨hclosed, hday⟩ := mem_localSessions.mp hs
    exact ⟨s, (hcounted s hclosed day).mpr ⟨hfirst, hday⟩⟩

theorem revenueRow_eq_iff (hgroup : counted sessions restaurantId clock day =
      localSessions sessions restaurantId offset day) :
    (revenueRow sessions restaurantId clock day).revenue =
      (total (localSessions sessions restaurantId offset day) : Rat) / 100 ↔
    Binary64.Exact (total (localSessions sessions restaurantId offset day)).natAbs 100 := by
  have hrevenue := revenueOf_eq_iff (sumAmounts (localSessions sessions restaurantId offset day))
  rw [sumAmounts_getD] at hrevenue
  rw [revenueRow, hgroup]
  exact hrevenue

/-- The rows are those of the restaurant's days exactly if its offset takes no session over
midnight or the start of the window, and the sums are floats. -/
theorem report_days : ReportsDays sessions restaurantId clock offset ↔
    SameDays sessions restaurantId clock offset := by
  constructor
  · intro h
    obtain ⟨hwindow, hdays⟩ := counted_local_iff.mp h.counted
    refine ⟨hwindow, fun s hs hsince => closedDay_eq_iff.mp (hdays s hs hsince), fun s hs hsince => ?_⟩
    have hfirst := (hwindow s hs).mp hsince
    have hmem : s.closedDay offset ∈ reportedDays sessions restaurantId clock :=
      (rows_local h.counted).mpr ⟨hfirst, List.ne_nil_of_mem (mem_localSessions.mpr ⟨hs, rfl⟩)⟩
    exact (revenueRow_eq_iff (counted_eq_local h.counted hfirst)).mp
      (h.revenue _ (List.mem_map_of_mem hmem))
  · intro h
    have hcounted := counted_local_iff.mpr
      ⟨h.window, fun s hs hsince => closedDay_eq_iff.mpr (h.midnight s hs hsince)⟩
    refine ⟨fun day => ?_, ?_, hcounted, fun row hrow => ?_, fun row hrow => ?_⟩
    · rw [revenueData_days]
      exact rows_local hcounted
    · rw [revenueData_days]
      exact reportedDays_nodup
    · obtain ⟨day, hday, rfl⟩ := List.mem_map.mp hrow
      obtain ⟨hfirst, hne⟩ := (rows_local hcounted).mp hday
      obtain ⟨s, hs⟩ := List.exists_mem_of_ne_nil _ hne
      obtain ⟨hclosed, rfl⟩ := mem_localSessions.mp hs
      exact (revenueRow_eq_iff (counted_eq_local hcounted hfirst)).mpr
        (h.exact s hclosed ((h.window s hclosed).mpr hfirst))
    · obtain ⟨day, hday, rfl⟩ := List.mem_map.mp hrow
      have hfirst := ((rows_local hcounted).mp hday).1
      rw [revenueRow, counted_eq_local hcounted hfirst]

/-- A bill that is paid at one in the morning in Ho Chi Minh City, on the second of January. -/
def lateSession : TableSession :=
  ⟨10, 1, 2, .closed, none, 50000000000, 64800000000, some 64800000000, none, some 5000000⟩

def nextNoon : ReportClock := ⟨129600000000, 0, 0⟩

theorem report_days_fails : ¬ ∀ (sessions : List TableSession) (restaurantId : Uuid) (clock : ReportClock)
    (offset : Int), ReportsDays sessions restaurantId clock offset := by
  intro h
  have hcounted := (h [lateSession] 1 nextNoon 25200000000).counted lateSession (by decide) 0
  have hlocal := (hcounted.mp (by decide)).2
  revert hlocal
  decide

end Correct

end QOrder
