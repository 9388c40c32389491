import QOrder.Endings
import QOrder.House
import QOrder.ReportSync

/-! The runs of the report job. No fault of the sheets or the database leaves part of a
report, or one report mixed with another, or a worksheet touched that is no page of it; and
a sync that returns has both pages show their reports. -/

namespace QOrder

open KeyedTable Concurrency ReportSyncService Scheduler

section Whole

variable {drive₀ : Drive} {key title : String} {values : List (List Cell)} {restaurantId : Uuid}
  {P P' : Reporting → Prop}

theorem lasting_true : Lasting fun _ => True := fun _ _ _ _ _ _ => trivial

theorem lasting_and (h : Lasting P) (h' : Lasting P') : Lasting fun σ => P σ ∧ P' σ :=
  fun σ σ' hd hp hn hσ => ⟨h σ σ' hd hp hn hσ.1, h' σ σ' hd hp hn hσ.2⟩

theorem lasting_grid {g : Option Grid} : Lasting fun σ => σ.drive.grid key title = g := by
  intro σ σ' hd _ _ h
  rw [hd]
  exact h

/-- What the process knows of the database, whatever becomes of the sheets. -/
structure Known (P : Reporting → Prop) : Prop where
  lasting : Lasting P
  apart : ∀ σ drive, P σ → P { σ with drive }

theorem known_true : Known fun _ => True := ⟨lasting_true, fun _ _ _ => trivial⟩

theorem known_reports (restaurantId : Uuid) (title : String) (values : List (List Cell)) :
    Known fun σ => σ.Reports restaurantId title values :=
  ⟨fun _ _ _ hp _ h => h.mono hp, fun _ _ h => h⟩

theorem known_named (key : String) (restaurantId : Uuid) : Known fun σ => σ.Named key restaurantId :=
  ⟨fun _ _ _ hp _ h => h.mono hp, fun _ _ h => h⟩

theorem known_day (clock : ReportClock) : Known fun σ => ∃ day ∈ σ.past, day.clock = clock := by
  refine ⟨fun _ _ _ hp _ h => ?_, fun _ _ h => h⟩
  obtain ⟨day, hd, hc⟩ := h
  exact ⟨day, hp hd, hc⟩

theorem known_and (h : Known P) (h' : Known P') : Known fun σ => P σ ∧ P' σ :=
  ⟨lasting_and h.lasting h'.lasting, fun σ drive hσ => ⟨h.apart σ drive hσ.1, h'.apart σ drive hσ.2⟩⟩

/-- What holds whatever becomes of the one worksheet. -/
structure Beside (key title : String) (P : Reporting → Prop) : Prop where
  lasting : Lasting P
  apart : ∀ σ drive, (∀ key' title', ¬ (key' = key ∧ title' = title) →
    drive.grid key' title' = σ.drive.grid key' title') → P σ → P { σ with drive }

theorem Known.beside (hP : Known P) : Beside key title P :=
  ⟨hP.lasting, fun σ drive _ h => hP.apart σ drive h⟩

theorem Beside.and (h : Beside key title P) (h' : Beside key title P') :
    Beside key title fun σ => P σ ∧ P' σ :=
  ⟨lasting_and h.lasting h'.lasting, fun σ drive hd hσ => ⟨h.apart σ drive hd hσ.1, h'.apart σ drive hd hσ.2⟩⟩

theorem beside_grid (key : String) {title title' : String} (g : Option Grid) (ht : title' ≠ title) :
    Beside key title fun σ => σ.drive.grid key title' = g := by
  refine ⟨lasting_grid, fun σ drive hd h => ?_⟩
  have hsame := hd key title' fun hk => ht hk.2
  exact hsame.trans h

/-- A statement whose answer tells the process something of the database. -/
theorem keeps_known {q : SheetStmt} {Q : q.Resp → Reporting → Prop} (hP : Known P)
    (hQ : ∀ a, Known (Q a)) (hr : ∀ σ, q.Ready σ)
    (h : ∀ a σ, σ.Kept drive₀ → P σ → q.Answers σ a → Q a σ) :
    KeepsWhole drive₀ P (call q) Q fun _ => True := by
  refine keeps_call hP.lasting (fun a => (hQ a).lasting) lasting_true (fun σ _ _ => hr σ) ?_
    fun _ _ _ _ => trivial
  intro a σ hi hσ ha
  have hq := h a σ hi hσ ha
  exact (hQ a).apart σ _ hq

theorem keeps_writeWorksheet (hP : Beside key title P)
    (h : ∀ σ, P σ → ∃ restaurantId, σ.Page restaurantId key title ∧ σ.Reports restaurantId title values) :
    KeepsWhole drive₀ P (writeWorksheet key title values)
      (fun _ σ => σ.drive.grid key title = some (Grid.blank.update values) ∧ P σ) fun _ => True := by
  have hready (σ : Reporting) (hσ : P σ) : ∃ restaurantId, σ.Page restaurantId key title := by
    obtain ⟨restaurantId, hpage, -⟩ := h σ hσ
    exact ⟨restaurantId, hpage⟩
  have hset {σ : Reporting} (g : Grid) (hσ : P σ) : P { σ with drive := σ.drive.set key title g } :=
    hP.apart σ _ (fun _ _ hne => Drive.grid_set_ne hne) hσ
  have hpages (g : Option Grid) : Lasting fun σ => σ.drive.grid key title = g ∧ P σ :=
    lasting_and lasting_grid hP.lasting
  refine keeps_bind (Q := fun _ => P) ?_ fun _ => ?_
  · refine keeps_tryCatch (E := P) ?_ fun e => ?_
    · refine keeps_call hP.lasting (fun _ => hP.lasting) hP.lasting (fun _ _ _ => trivial)
        (fun _ _ _ hσ _ => hσ) ?_
      rintro σ drive (rfl | rfl) hσ
      · exact hσ
      · exact hσ
    · cases e with
      | worksheetNotFound =>
        exact keeps_call hP.lasting (fun _ => hP.lasting) lasting_true (fun σ _ hσ => hready σ hσ)
          (fun _ _ _ hσ _ => hset _ hσ) fun _ _ _ _ => trivial
      | other => exact keeps_raise hP.lasting fun _ _ => trivial
  · refine keeps_bind (Q := fun _ σ => σ.drive.grid key title = some .blank ∧ P σ) ?_ fun _ => ?_
    · refine keeps_call hP.lasting (fun _ => hpages _) lasting_true (fun σ _ hσ => hready σ hσ)
        (fun a σ _ hσ ha => ?_) fun _ _ _ _ => trivial
      exact ⟨Drive.grid_set (Drive.isSome_of_grid ha), hset _ hσ⟩
    · refine keeps_call (hpages _) (fun _ => hpages _) lasting_true (fun σ _ hσ => ⟨hσ.1, h σ hσ.2⟩)
        (fun _ σ _ hσ ha => ⟨?_, hset _ hσ.2⟩) fun _ _ _ _ => trivial
      have hpage : ((σ.drive.grid key title).getD .blank).update values = Grid.blank.update values := by
        rw [hσ.1]
        rfl
      exact (Drive.grid_set (Drive.isSome_of_grid ha)).trans (congrArg some hpage)

/-- Both pages show reports of the restaurant. -/
structure Reporting.Published (σ : Reporting) (restaurantId : Uuid) (key : String) : Prop where
  named : σ.Named key restaurantId
  revenue : σ.Shows restaurantId key "Revenue"
  topItems : σ.Shows restaurantId key "Top Items"

theorem KeepsWhole.mono {α : Type} {p : SheetProg α} {Q Q' : α → Reporting → Prop} {E E' : Reporting → Prop}
    (h : KeepsWhole drive₀ P p Q E) (hQ : ∀ a σ, Q a σ → Q' a σ) (hE : ∀ σ, E σ → E' σ) :
    KeepsWhole drive₀ P p Q' E' := by
  intro σ hi hσ
  refine (h σ hi hσ).mono fun r σ' _ hr => ⟨fun a ha => ?_, fun e he => ?_⟩
  · exact hQ a σ' (hr.1 a ha)
  · exact hE σ' (hr.2 e he)

theorem keeps_writeToSheet {revenueRows : List RevenueRow} {topRows : List TopItem} :
    KeepsWhole drive₀ (fun σ => σ.Named key restaurantId ∧
        σ.Reports restaurantId "Revenue" (revenuePage revenueRows) ∧
        σ.Reports restaurantId "Top Items" (topItemsPage topRows))
      (writeToSheet key revenueRows topRows) (fun _ σ => σ.Published restaurantId key) fun _ => True := by
  have hP := known_and (known_named key restaurantId)
    (known_and (known_reports restaurantId "Revenue" (revenuePage revenueRows))
      (known_reports restaurantId "Top Items" (topItemsPage topRows)))
  refine keeps_bind (keeps_known hP (fun _ => hP) (fun _ => trivial) fun _ _ _ hσ _ => hσ) fun _ => ?_
  refine keeps_bind (keeps_known hP (fun _ => hP) (fun _ => trivial) fun _ _ _ hσ _ => hσ) fun _ => ?_
  refine keeps_bind (keeps_writeWorksheet hP.beside fun σ hσ => ?_) fun _ => ?_
  · exact ⟨restaurantId, ⟨hσ.1, .inl rfl⟩, hσ.2.1⟩
  · have hne : "Revenue" ≠ "Top Items" := by decide
    have hrev := beside_grid key (some (Grid.blank.update (revenuePage revenueRows))) hne
    refine (keeps_writeWorksheet (hrev.and hP.beside) fun σ hσ => ?_).mono (fun _ σ hσ => ?_) fun _ h => h
    · exact ⟨restaurantId, ⟨hσ.2.1, .inr rfl⟩, hσ.2.2.2⟩
    · obtain ⟨htop, hrevenue, hnamed, hr, ht⟩ := hσ
      exact ⟨hnamed, ⟨_, hr, hrevenue⟩, ⟨_, ht, htop⟩⟩

/-- What follows once the sheet of the restaurant is known. -/
theorem keeps_report : KeepsWhole drive₀ (fun σ => σ.Named key restaurantId)
    (do
      let clock ← call .today
      let revenueData ← call (.revenueRows restaurantId clock)
      let topItemsData ← call (.topItemsRows restaurantId clock)
      writeToSheet key revenueData topItemsData)
    (fun _ σ => σ.Published restaurantId key) fun _ => True := by
  have hnamed := known_named key restaurantId
  refine keeps_bind (keeps_known hnamed (fun clock => known_and hnamed (known_day clock))
    (fun _ => trivial) ?_) fun clock => ?_
  · rintro clock σ hi hσ rfl
    exact ⟨hσ, σ.now, hi.present, rfl⟩
  have hday := known_and hnamed (known_day clock)
  refine keeps_bind (keeps_known hday (fun rows => known_and hday
    (known_reports restaurantId "Revenue" (revenuePage rows))) (fun _ => trivial) ?_) fun revenueRows => ?_
  · rintro rows σ hi ⟨hn, day, hd, rfl⟩ rfl
    exact ⟨⟨hn, day, hd, rfl⟩, σ.now, hi.present, day, hd, .inl ⟨rfl, rfl⟩⟩
  have hrevenue := known_reports restaurantId "Revenue" (revenuePage revenueRows)
  refine keeps_bind (keeps_known (known_and hday hrevenue) (fun rows => known_and hnamed (known_and hrevenue
    (known_reports restaurantId "Top Items" (topItemsPage rows)))) (fun _ => trivial) ?_)
    fun topRows => keeps_writeToSheet
  rintro rows σ hi ⟨⟨hn, day, hd, rfl⟩, hrev⟩ ha
  exact ⟨hn, hrev, σ.now, hi.present, day, hd, .inr ⟨rfl, rows, ha, rfl⟩⟩

/-- At some time the restaurant has named no sheet, or its reports are published. -/
def Reporting.Synced (σ : Reporting) (restaurantId : Uuid) : Prop :=
  (∃ db ∈ σ.past, ∀ s, db.office.settings.find? (fun s => s.restaurantId == restaurantId) = some s →
    s.reportSheetId = none ∨ s.reportSheetId = some "") ∨ ∃ key, σ.Published restaurantId key

theorem keeps_doSync : KeepsWhole drive₀ (fun _ => True) (doSync restaurantId)
    (fun _ σ => σ.Synced restaurantId) fun _ => True := by
  -- the row as the process has read it
  have hrow (row : Option (Option String)) : Known fun σ => ∃ db ∈ σ.past,
      row = (db.office.settings.find? fun s => s.restaurantId == restaurantId).map (·.reportSheetId) := by
    refine ⟨fun _ _ _ hp _ h => ?_, fun _ _ h => h⟩
    obtain ⟨db, hdb, hr⟩ := h
    exact ⟨db, hp hdb, hr⟩
  refine keeps_bind (keeps_known known_true hrow (fun _ => trivial) ?_) fun row => ?_
  · intro row σ hi _ ha
    exact ⟨σ.now, hi.present, ha⟩
  · have hnone (row : Option (Option String)) (h : row = none ∨ row = some none ∨ row = some (some "")) : KeepsWhole drive₀
        (fun σ => ∃ db ∈ σ.past,
          row = (db.office.settings.find? fun s => s.restaurantId == restaurantId).map (·.reportSheetId))
        (pure ()) (fun _ σ => σ.Synced restaurantId) fun _ => True := by
      refine keeps_ret (hrow row).lasting fun σ hσ => ?_
      obtain ⟨db, hdb, hr⟩ := hσ
      refine .inl ⟨db, hdb, fun s hs => ?_⟩
      rw [hs, Option.map_some] at hr
      simpa [hr] using h
    match row with
    | none => exact hnone _ (.inl rfl)
    | some none => exact hnone _ (.inr (.inl rfl))
    | some (some sheetId) =>
      dsimp only
      by_cases hs : sheetId = ""
      · rw [if_pos hs]
        exact hnone _ (.inr (.inr (by rw [hs])))
      · rw [if_neg hs]
        intro σ hi hσ
        obtain ⟨db, hdb, hr⟩ := hσ
        obtain ⟨s, hf, hk⟩ := Option.map_eq_some_iff.mp hr.symm
        have hid := List.find?_some hf
        have hnamed : σ.Named sheetId restaurantId :=
          ⟨db, hdb, s, List.mem_of_find?_eq_some hf, by simpa using hid, hk⟩
        exact keeps_report.mono (fun _ _ h => .inr ⟨sheetId, h⟩) (fun _ h => h) σ hi hnamed

theorem keeps_sync : KeepsWhole drive₀ (fun _ => True) (sync restaurantId) (fun _ _ => True) fun _ => False :=
  keeps_tryCatch (E := fun _ => True) (keeps_doSync.mono (fun _ _ _ => trivial) fun _ h => h)
    fun _ => keeps_ret lasting_true fun _ _ => trivial

theorem keeps_syncAll (restaurantIds : List Uuid) :
    KeepsWhole drive₀ (fun _ => True) (syncAll restaurantIds) (fun _ _ => True) fun _ => False := by
  induction restaurantIds with
  | nil => exact keeps_ret lasting_true fun _ _ => trivial
  | cons rid rids ih =>
    refine keeps_bind (Q := fun _ _ => True) ?_ fun _ => ih
    exact keeps_tryCatch (E := fun _ => True) (keeps_sync.mono (fun _ _ h => h) fun _ _ => trivial)
      fun _ => keeps_ret lasting_true fun _ _ => trivial

theorem keeps_syncReports :
    KeepsWhole drive₀ (fun _ => True) syncReports (fun _ _ => True) fun _ => False := by
  refine keeps_tryCatch (E := fun _ => True) ?_ fun _ => keeps_ret lasting_true fun _ _ => trivial
  refine keeps_bind (keeps_known known_true (fun _ => known_true) (fun _ => trivial) fun _ _ _ _ _ => trivial)
    fun restaurantIds => ?_
  exact (keeps_syncAll restaurantIds).mono (fun _ _ h => h) fun _ _ => trivial

theorem keeps_reportJobs (k : Nat) :
    KeepsWhole drive₀ (fun _ => True) (reportJobs k) (fun _ _ => True) fun _ => False := by
  induction k with
  | zero => exact keeps_ret lasting_true fun _ _ => trivial
  | succ k ih => exact keeps_bind keeps_syncReports fun _ => ih

end Whole

/-- Nothing has been read or written yet. -/
def Reporting.start (drive : Drive) (db : Database) : Reporting := ⟨drive, db, [db]⟩

theorem kept_start (drive : Drive) (db : Database) : (Reporting.start drive db).Kept drive :=
  ⟨List.mem_singleton.mpr rfl, fun _ _ => .inl rfl⟩

section Runs

variable {drive : Drive} {db : Database} {k : Nat} {restaurantId : Uuid}
  {p : Pool Unit Reporting SheetStmt SheetStmt.Resp SheetError SheetError Unit}

/-- However often the job runs, whatever fails and however the database moves on, the job goes
on, and every worksheet is as it was, or is a page that is empty or shows one whole report. -/
theorem reports_whole (h : reportMachine.Reachable ⟨.start drive db, fun _ => reportJobs k⟩ p) :
    (∀ e, p.threads () ≠ .raise e) ∧ ∀ key title, p.state.Whole drive key title := by
  obtain ⟨hi, hend⟩ := (reportDiscipline drive).sound h (kept_start drive db)
    fun _ => keeps_reportJobs k _ (kept_start drive db) trivial
  refine ⟨fun e he => ?_, hi.whole⟩
  have hlast := hend ()
  rw [he] at hlast
  exact (hlast _ .refl hi).2 e rfl

/-- When a sync returns and has not raised, both pages show whole reports of the restaurant made
since it began, whatever the worksheets held. -/
theorem doSync_publishes (h : reportMachine.Reachable ⟨.start drive db, fun _ => doSync restaurantId⟩ p)
    (hret : p.threads () = .ret ()) : p.state.Synced restaurantId := by
  obtain ⟨hi, hend⟩ := (reportDiscipline drive).sound h (kept_start drive db)
    fun _ => keeps_doSync _ (kept_start drive db) trivial
  have hlast := hend ()
  rw [hret] at hlast
  exact (hlast _ .refl hi).1 () rfl

end Runs

section Cafe

/-- The café has named its sheet; the dish of its guests is served and paid. -/
def cafeBooks : Database where
  office := { cafeOffice with settings := [{ restaurantId := 1, reportSheetId := some "so-sach" }] }
  data := cafeCheckedOut.data
  clock := ⟨hours 8, 0, 0⟩

/-- The sheet with an old page of a longer report, and the notes of the owner. -/
def cafeDrive : Drive := fun key => if key = "so-sach" then some fun title =>
  if title = "Revenue" then some (Grid.blank.update [[.text "Ngày"], [.day 1], [.day 2], [.day 3]])
  else if title = "Notes" then some (Grid.blank.update [[.text "mua trà"]]) else none else none

/-- The job alone, while the statements that `fails` picks raise. -/
theorem reports_alone {α : Type} (fails : SheetStmt → Bool) (a : SheetProg α) (σ : Reporting) :
    ∃ p, reportMachine.Reachable ⟨σ, fun _ => a⟩ p ∧
      p.state = (a.run (fun q τ => τ.perform fails q) σ).2 ∧
      (p.threads ()).answer = some (a.run (fun q τ => τ.perform fails q) σ).1 := by
  have hrun := Machine.reachable_run (M := reportMachine) (t := ())
    (fun q τ => Reporting.perform_exec fails q τ) a σ fun _ => a
  rw [Function.update_eq_self] at hrun
  refine ⟨_, hrun, rfl, ?_⟩
  simp only [Function.update_self]
  cases (a.run (fun q τ => τ.perform fails q) σ).1 with
  | ok a => rfl
  | error e => rfl

/-- The page is cleared, and the sheets fail before it is written. -/
theorem reports_whole_cafe : ∃ p, reportMachine.Reachable ⟨.start cafeDrive cafeBooks, fun _ => reportJobs 1⟩ p ∧
    p.state.drive.grid "so-sach" "Revenue" = some .blank ∧ p.state.Whole cafeDrive "so-sach" "Revenue" := by
  obtain ⟨p, hr, hstate, -⟩ := reports_alone (fun q => match q with | .update _ _ _ => true | _ => false)
    (reportJobs 1) (.start cafeDrive cafeBooks)
  refine ⟨p, hr, ?_, (reports_whole hr).2 _ _⟩
  rw [hstate]
  rfl

/-- The new page does not end with the days of the old one. -/
theorem doSync_publishes_cafe : ∃ p, reportMachine.Reachable ⟨.start cafeDrive cafeBooks, fun _ => doSync 1⟩ p ∧
    p.threads () = .ret () ∧ (p.state.drive.grid "so-sach" "Revenue").map (fun g => g 3 0) = some none ∧
    p.state.Synced 1 := by
  obtain ⟨p, hr, hstate, hanswer⟩ := reports_alone (fun _ => false) (doSync 1) (.start cafeDrive cafeBooks)
  have hret : p.threads () = .ret () := Prog.answer_ok hanswer
  refine ⟨p, hr, hret, ?_, doSync_publishes hr hret⟩
  rw [hstate]
  decide +kernel

end Cafe

end QOrder
