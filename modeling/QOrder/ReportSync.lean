import QOrder.Sheets

/-! The sync of the reports: whatever raises while a page is written, and however the database
moves on, a worksheet is as it was, or empty, or one whole report. -/

namespace QOrder

open KeyedTable Concurrency

abbrev SheetProg := Prog SheetStmt SheetStmt.Resp SheetError SheetError

namespace ReportSyncService

def call (q : SheetStmt) : SheetProg q.Resp := Prog.call id q

def revenuePage (rows : List RevenueRow) : List (List Cell) :=
  [.text "Ngày", .text "Doanh thu", .text "Số phiên"] ::
    rows.map fun r => [.day r.day, .amount r.revenue, .count r.sessions]

def topItemsPage (rows : List TopItem) : List (List Cell) :=
  [.text "Món", .text "Số lượng bán"] :: rows.map fun r => [.text r.name, .count r.sold]

/-- What `_write_revenue_worksheet` and `_write_top_items_worksheet` share. -/
def writeWorksheet (key title : String) (values : List (List Cell)) : SheetProg Unit := do
  (call (.worksheet key title)).tryCatch fun
    | .worksheetNotFound => call (.addWorksheet key title)
    | .other => throw .other
  call (.clear key title)
  call (.update key title values)

def writeRevenueWorksheet (key : String) (revenueData : List RevenueRow) : SheetProg Unit :=
  writeWorksheet key "Revenue" (revenuePage revenueData)

def writeTopItemsWorksheet (key : String) (topItemsData : List TopItem) : SheetProg Unit :=
  writeWorksheet key "Top Items" (topItemsPage topItemsData)

def writeToSheet (sheetId : String) (revenueData : List RevenueRow) (topItemsData : List TopItem) :
    SheetProg Unit := do
  call .getGspreadClient
  call (.openByKey sheetId)
  writeRevenueWorksheet sheetId revenueData
  writeTopItemsWorksheet sheetId topItemsData

def doSync (restaurantId : Uuid) : SheetProg Unit := do
  match ← call (.reportSheetId restaurantId) with
  | some (some sheetId) =>
    if sheetId = "" then return ()
    else
      let clock ← call .today
      let revenueData ← call (.revenueRows restaurantId clock)
      let topItemsData ← call (.topItemsRows restaurantId clock)
      writeToSheet sheetId revenueData topItemsData
  | _ => return ()

def sync (restaurantId : Uuid) : SheetProg Unit := (doSync restaurantId).tryCatch fun _ => pure ()

end ReportSyncService

namespace Scheduler

/-- The loop of `_run_report_sync`. -/
def syncAll : List Uuid → SheetProg Unit
  | [] => pure ()
  | rid :: rids => do
    (ReportSyncService.sync rid).tryCatch fun _ => pure ()
    syncAll rids

def runReportSync : SheetProg Unit := do
  let restaurantIds ← ReportSyncService.call .reportRestaurants
  syncAll restaurantIds

/-- Under the lock of the job. -/
def syncReports : SheetProg Unit := runReportSync.tryCatch fun _ => pure ()

/-- The job as often as it is started. -/
def reportJobs : Nat → SheetProg Unit
  | 0 => pure ()
  | k + 1 => do
    syncReports
    reportJobs k

end Scheduler

open ReportSyncService Scheduler

/-- The restaurant has named the spreadsheet. -/
def Reporting.Named (σ : Reporting) (key : String) (restaurantId : Uuid) : Prop :=
  ∃ db ∈ σ.past, ∃ s ∈ db.office.settings, s.restaurantId = restaurantId ∧ s.reportSheetId = some key

/-- The values are the restaurant's report of one state of the database. -/
def Reporting.Reports (σ : Reporting) (restaurantId : Uuid) (title : String) (values : List (List Cell)) :
    Prop :=
  ∃ db ∈ σ.past, ∃ day ∈ σ.past,
    (title = "Revenue" ∧ values = revenuePage (revenueData db.data.sessions restaurantId day.clock)) ∨
      (title = "Top Items" ∧ ∃ rows, IsTop (topGroups db.data restaurantId day.clock) rows ∧
        values = topItemsPage rows)

structure Reporting.Page (σ : Reporting) (restaurantId : Uuid) (key title : String) : Prop where
  named : σ.Named key restaurantId
  title : title = "Revenue" ∨ title = "Top Items"

/-- The worksheet holds one such report and nothing else. -/
def Reporting.Shows (σ : Reporting) (restaurantId : Uuid) (key title : String) : Prop :=
  ∃ values, σ.Reports restaurantId title values ∧
    σ.drive.grid key title = some (Grid.blank.update values)

/-- The worksheet is as it was, or it is a page that is empty or shows one whole report. -/
def Reporting.Whole (σ : Reporting) (drive₀ : Drive) (key title : String) : Prop :=
  σ.drive.grid key title = drive₀.grid key title ∨
    ∃ restaurantId, σ.Page restaurantId key title ∧
      (σ.drive.grid key title = some .blank ∨ σ.Shows restaurantId key title)

section Facts

variable {σ σ' : Reporting} {key title : String} {values : List (List Cell)} {restaurantId : Uuid}
  {drive₀ : Drive}

theorem Reporting.Named.mono (h : σ.Named key restaurantId) (hp : σ.past ⊆ σ'.past) :
    σ'.Named key restaurantId := by
  obtain ⟨db, hdb, hs⟩ := h
  exact ⟨db, hp hdb, hs⟩

theorem Reporting.Page.mono (h : σ.Page restaurantId key title) (hp : σ.past ⊆ σ'.past) :
    σ'.Page restaurantId key title :=
  ⟨h.named.mono hp, h.title⟩

theorem Reporting.Reports.mono (h : σ.Reports restaurantId title values) (hp : σ.past ⊆ σ'.past) :
    σ'.Reports restaurantId title values := by
  obtain ⟨db, hdb, day, hday, hv⟩ := h
  exact ⟨db, hp hdb, day, hp hday, hv⟩

theorem Reporting.Shows.mono (h : σ.Shows restaurantId key title) (hp : σ.past ⊆ σ'.past)
    (hd : σ'.drive.grid key title = σ.drive.grid key title) : σ'.Shows restaurantId key title := by
  obtain ⟨values, hv, hgrid⟩ := h
  exact ⟨values, hv.mono hp, hd.trans hgrid⟩

theorem Reporting.Whole.mono (h : σ.Whole drive₀ key title) (hp : σ.past ⊆ σ'.past)
    (hd : σ'.drive.grid key title = σ.drive.grid key title) : σ'.Whole drive₀ key title := by
  rcases h with h | ⟨restaurantId, hpage, h | h⟩
  · exact .inl (hd.trans h)
  · exact .inr ⟨restaurantId, hpage.mono hp, .inl (hd.trans h)⟩
  · exact .inr ⟨restaurantId, hpage.mono hp, .inr (h.mono hp hd)⟩

structure Reporting.Kept (drive₀ : Drive) (σ : Reporting) : Prop where
  present : σ.now ∈ σ.past
  whole : ∀ key title, σ.Whole drive₀ key title

/-- Only pages are cleared, and a page is only written over an empty worksheet. -/
def SheetStmt.Ready (σ : Reporting) : SheetStmt → Prop
  | .addWorksheet key title | .clear key title => ∃ restaurantId, σ.Page restaurantId key title
  | .update key title values => σ.drive.grid key title = some .blank ∧
    ∃ restaurantId, σ.Page restaurantId key title ∧ σ.Reports restaurantId title values
  | _ => True

theorem kept_set {g : Grid} (hi : σ.Kept drive₀) (h : (σ.drive key).isSome = true)
    (hpage : σ.Page restaurantId key title)
    (hg : g = .blank ∨ ∃ values, σ.Reports restaurantId title values ∧ g = Grid.blank.update values) :
    Reporting.Kept drive₀ { σ with drive := σ.drive.set key title g } := by
  refine ⟨hi.present, fun key' title' => ?_⟩
  by_cases hk : key' = key ∧ title' = title
  · obtain ⟨rfl, rfl⟩ := hk
    have hgrid : (σ.drive.set key' title' g).grid key' title' = some g := Drive.grid_set h
    refine .inr ⟨restaurantId, hpage.mono fun _ h => h, ?_⟩
    rcases hg with rfl | ⟨values, hv, rfl⟩
    · exact .inl hgrid
    · exact .inr ⟨values, hv, hgrid⟩
  · exact (hi.whole key' title').mono (fun _ h => h) (Drive.grid_set_ne hk)

theorem kept_effect {q : SheetStmt} {a : q.Resp} (hi : σ.Kept drive₀) (hr : q.Ready σ)
    (ha : q.Answers σ a) : Reporting.Kept drive₀ { σ with drive := q.effect σ.drive } := by
  cases q with
  | addWorksheet key title =>
    obtain ⟨restaurantId, hpage⟩ := hr
    exact kept_set hi ha.1 hpage (.inl rfl)
  | clear key title =>
    obtain ⟨restaurantId, hpage⟩ := hr
    exact kept_set hi (Drive.isSome_of_grid ha) hpage (.inl rfl)
  | update key title values =>
    obtain ⟨hblank, restaurantId, hpage, hv⟩ := hr
    refine kept_set hi (Drive.isSome_of_grid ha) hpage (.inr ⟨values, hv, ?_⟩)
    rw [hblank]
    rfl
  | _ => exact hi

end Facts

def reportDiscipline (drive₀ : Drive) : Discipline reportMachine where
  inv := Reporting.Kept drive₀
  pre _ q σ := q.Ready σ
  exec_inv hi hr hx := by
    cases hx with
    | answer ha => exact kept_effect hi hr ha
    | missing h => exact hi
    | failed => exact hi
    | unanswered ha => exact kept_effect hi hr ha
  env_inv := by
    rintro σ σ' hi ⟨db, rfl⟩
    refine ⟨List.mem_cons_self, fun key title => ?_⟩
    exact (hi.whole key title).mono (List.subset_cons_self _ _) rfl

section Safety

variable {drive₀ : Drive} {σ σ' : Reporting} {key title : String} {values : List (List Cell)}
  {restaurantId : Uuid} {α β : Type} {P : Reporting → Prop}

/-- A property that the process may rely on while the database moves on. -/
def Lasting (P : Reporting → Prop) : Prop :=
  ∀ σ σ' : Reporting, σ'.drive = σ.drive → σ.past ⊆ σ'.past → σ'.now ∈ σ'.past → P σ → P σ'

theorem Lasting.stable (hP : Lasting P) : (reportDiscipline drive₀).Stable () P := by
  rintro σ σ' ⟨-, hi, hstep⟩ hσ
  rcases hstep with ⟨db, rfl⟩ | ⟨u, q, r, hu, -⟩
  · exact hP σ _ rfl (List.subset_cons_self _ _) hi.present hσ
  · exact absurd rfl hu

/-- The program keeps every worksheet whole; it returns with `Q` or raises with `E`. -/
def KeepsWhole (drive₀ : Drive) (P : Reporting → Prop) (p : SheetProg α) (Q : α → Reporting → Prop)
    (E : Reporting → Prop) : Prop :=
  ∀ σ, σ.Kept drive₀ → P σ → (reportDiscipline drive₀).Safe () p
    (fun r σ' => (∀ a, r = .ok a → Q a σ') ∧ ∀ e, r = .error e → E σ') σ

variable {Q : α → Reporting → Prop} {E : Reporting → Prop}

theorem keeps_ret {a : α} (hP : Lasting P) (h : ∀ σ, P σ → Q a σ) : KeepsWhole drive₀ P (pure a) Q E := by
  intro σ hi hσ
  refine Discipline.Safe.ret hP.stable hσ fun σ' _ hσ' => ⟨fun b hb => ?_, fun e he => by cases he⟩
  cases hb
  exact h σ' hσ'

theorem keeps_raise {e : SheetError} (hP : Lasting P) (h : ∀ σ, P σ → E σ) :
    KeepsWhole drive₀ P (throw e) Q E :=
  fun _ _ hσ => Discipline.Safe.raise hP.stable hσ fun σ' _ hσ' =>
    ⟨fun b hb => (by cases hb), fun _ _ => h σ' hσ'⟩

/-- A failed statement has had its effect on the sheets, or none. -/
theorem keeps_call {q : SheetStmt} {Q : q.Resp → Reporting → Prop} (hP : Lasting P)
    (hQ : ∀ a, Lasting (Q a)) (hE : Lasting E) (hr : ∀ σ, σ.Kept drive₀ → P σ → q.Ready σ)
    (h : ∀ a σ, σ.Kept drive₀ → P σ → q.Answers σ a → Q a { σ with drive := q.effect σ.drive })
    (he : ∀ σ drive, drive = σ.drive ∨ drive = q.effect σ.drive → P σ → E { σ with drive }) :
    KeepsWhole drive₀ P (call q) Q E := by
  intro σ hi hσ
  refine Discipline.Safe.call hP.stable hσ hr (fun a σ₁ σ₂ hi₁ hσ₁ hx => ?_) fun e σ₁ σ₂ hi₁ hσ₁ hx => ?_
  · cases hx with
    | answer ha =>
      have hq := h a σ₁ hi₁ hσ₁ ha
      refine Discipline.Safe.ret (hQ a).stable hq fun σ' _ hq' => ⟨fun b hb => ?_, fun e he => by cases he⟩
      cases hb
      exact hq'
  · have hraised : E σ₂ := by
      cases hx with
      | missing | failed => exact he σ₁ σ₁.drive (.inl rfl) hσ₁
      | unanswered => exact he σ₁ _ (.inr rfl) hσ₁
    exact Discipline.Safe.raise hE.stable hraised fun σ' _ hσ' =>
      ⟨fun b hb => (by cases hb), fun _ _ => hσ'⟩

theorem keeps_bind {p : SheetProg α} {f : α → SheetProg β} {Q' : β → Reporting → Prop}
    (hp : KeepsWhole drive₀ P p Q E) (hf : ∀ a, KeepsWhole drive₀ (Q a) (f a) Q' E) :
    KeepsWhole drive₀ P (p >>= f) Q' E := by
  intro σ hi hσ
  refine Discipline.Safe.bind hi (hp σ hi hσ) (fun a σ' hi' hq => hf a σ' hi' (hq.1 a rfl)) ?_
  exact fun e σ' _ he => ⟨fun b hb => (by cases hb), fun _ _ => he.2 e rfl⟩

theorem keeps_tryCatch {p : SheetProg α} {f : SheetError → SheetProg α} {E' : Reporting → Prop}
    (hp : KeepsWhole drive₀ P p Q E) (hf : ∀ e, KeepsWhole drive₀ E (f e) Q E') :
    KeepsWhole drive₀ P (p.tryCatch f) Q E' := by
  intro σ hi hσ
  refine Discipline.Safe.tryCatch hi (hp σ hi hσ) (fun a σ' _ hq => ⟨fun b hb => ?_, fun e he => by cases he⟩)
    fun e σ' hi' he => hf e σ' hi' (he.2 e rfl)
  cases hb
  exact hq.1 a rfl

end Safety

end QOrder
