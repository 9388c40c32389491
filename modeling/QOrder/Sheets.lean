import QOrder.DailyReport
import QOrder.Interleaving
import QOrder.OfficeSchema

/-! The spreadsheets that the reports are written to, and the statements of a sync: its
queries, each of which sees the database of its moment, and the calls of the sheets. -/

namespace QOrder

open KeyedTable Concurrency

inductive Cell
  | text (value : String)
  | day (value : Int)
  | amount (value : Rat)
  | count (value : Nat)
  deriving DecidableEq, Repr

abbrev Grid := Nat → Nat → Option Cell

def Grid.blank : Grid := fun _ _ => none

/-- `ws.update(values=values, range_name="A1")`: the cells beyond the values stay. -/
def Grid.update (g : Grid) (values : List (List Cell)) : Grid := fun i j =>
  (values[i]?.bind fun row => row[j]?).or (g i j)

/-- The worksheets of each spreadsheet. -/
abbrev Drive := String → Option (String → Option Grid)

namespace Drive

def grid (drive : Drive) (key title : String) : Option Grid := (drive key).bind fun sheet => sheet title

def set (drive : Drive) (key title : String) (g : Grid) : Drive :=
  Function.update drive key ((drive key).map fun sheet => Function.update sheet title (some g))

end Drive

structure TopItem where
  name : String
  sold : Nat
  deriving DecidableEq, Repr

/-- `order_items oi JOIN orders o ON o.id = oi.order_id`, served in the window. -/
def soldItems (d : Data) (restaurantId : Uuid) (clock : ReportClock) : List OrderItem :=
  (d.items.flatMap fun oi => (d.orders.filter fun o => o.id == oi.orderId).map fun _ => oi).filter fun oi =>
    oi.restaurantId == restaurantId && oi.status == .served &&
      oi.servedAt.any fun t => clock.sinceInstant ≤ t

/-- `SUM(oi.quantity)` of the group. -/
def totalSold (d : Data) (restaurantId : Uuid) (clock : ReportClock) (name : String) : Nat :=
  (((soldItems d restaurantId clock).filter fun oi => oi.nameSnapshot == name).map OrderItem.quantity).sum

def topGroups (d : Data) (restaurantId : Uuid) (clock : ReportClock) : List TopItem :=
  (((soldItems d restaurantId clock).map OrderItem.nameSnapshot).dedup).map fun name =>
    ⟨name, totalSold d restaurantId clock name⟩

/-- `ORDER BY total_sold DESC LIMIT 50`; groups of one total come in any order. -/
def IsTop (groups rows : List TopItem) : Prop :=
  ∃ sorted : List TopItem, sorted.Perm groups ∧ sorted.Pairwise (fun a b => b.sold ≤ a.sold) ∧
    rows = sorted.take 50

/-- The groups of one total in the order they come. -/
def topItems (groups : List TopItem) : List TopItem :=
  (groups.insertionSort fun a b => b.sold ≤ a.sold).take 50

theorem isTop_topItems (groups : List TopItem) : IsTop groups (topItems groups) := by
  have : Std.Total fun a b : TopItem => b.sold ≤ a.sold := ⟨fun a b => Nat.le_total b.sold a.sold⟩
  have : IsTrans TopItem fun a b => b.sold ≤ a.sold := ⟨fun _ _ _ h h' => Nat.le_trans h' h⟩
  exact ⟨_, List.perm_insertionSort _ groups, List.pairwise_insertionSort _ groups, rfl⟩

/-- What a statement of a sync may see. -/
structure Database where
  office : Office
  data : Data
  clock : ReportClock

inductive SheetError
  | worksheetNotFound
  | other
  deriving DecidableEq, Repr

inductive SheetStmt
  | reportRestaurants
  | reportSheetId (restaurantId : Uuid)
  /-- `date.today()` -/
  | today
  | revenueRows (restaurantId : Uuid) (clock : ReportClock)
  | topItemsRows (restaurantId : Uuid) (clock : ReportClock)
  | getGspreadClient
  | openByKey (key : String)
  | worksheet (key title : String)
  | addWorksheet (key title : String)
  | clear (key title : String)
  | update (key title : String) (values : List (List Cell))

@[reducible] def SheetStmt.Resp : SheetStmt → Type
  | reportRestaurants => List Uuid
  | reportSheetId _ => Option (Option String)
  | today => ReportClock
  | revenueRows _ _ => List RevenueRow
  | topItemsRows _ _ => List TopItem
  | getGspreadClient | openByKey _ | worksheet _ _ | addWorksheet _ _ | clear _ _ | update _ _ _ => Unit

/-- The sheets and the database, with the databases there have been. -/
structure Reporting where
  drive : Drive
  now : Database
  past : List Database

namespace SheetStmt

/-- A statement that succeeds may answer `a`. -/
def Answers (σ : Reporting) : (q : SheetStmt) → q.Resp → Prop
  | reportRestaurants, ids =>
    ids = (σ.now.office.settings.filter fun s => s.reportSheetId.isSome).map fun s => s.restaurantId
  | reportSheetId restaurantId, row =>
    row = (σ.now.office.settings.find? fun s => s.restaurantId == restaurantId).map (·.reportSheetId)
  | today, clock => clock = σ.now.clock
  | revenueRows restaurantId clock, rows => rows = revenueData σ.now.data.sessions restaurantId clock
  | topItemsRows restaurantId clock, rows => IsTop (topGroups σ.now.data restaurantId clock) rows
  | getGspreadClient, _ => True
  | openByKey key, _ => (σ.drive key).isSome
  | worksheet key title, _ | clear key title, _ | update key title _, _ => (σ.drive.grid key title).isSome
  | addWorksheet key title, _ => (σ.drive key).isSome ∧ σ.drive.grid key title = none

/-- What a call does to the sheets. -/
def effect (drive : Drive) : SheetStmt → Drive
  | addWorksheet key title | clear key title => drive.set key title .blank
  | update key title values => drive.set key title (((drive.grid key title).getD .blank).update values)
  | _ => drive

end SheetStmt

/-- A statement answers, misses its worksheet, or raises, and then its call may yet have gone
through. -/
inductive SheetExec : (q : SheetStmt) → Reporting → Except SheetError q.Resp → Reporting → Prop
  | answer {q : SheetStmt} {σ : Reporting} {a : q.Resp} (h : q.Answers σ a) :
      SheetExec q σ (.ok a) { σ with drive := q.effect σ.drive }
  | missing {key title : String} {σ : Reporting} (h : σ.drive.grid key title = none) :
      SheetExec (.worksheet key title) σ (.error .worksheetNotFound) σ
  | failed {q : SheetStmt} {σ : Reporting} : SheetExec q σ (.error .other) σ
  | unanswered {q : SheetStmt} {σ : Reporting} {a : q.Resp} (h : q.Answers σ a) :
      SheetExec q σ (.error .other) { σ with drive := q.effect σ.drive }

/-- One process runs the job; the database moves on while it does. -/
def reportMachine : Machine Unit Reporting SheetStmt SheetStmt.Resp SheetError where
  exec _ := SheetExec
  env σ σ' := ∃ db, σ' = { σ with now := db, past := db :: σ.past }

/-- One answer of each statement, where `fails` lets it through. -/
def Reporting.perform (fails : SheetStmt → Bool) (q : SheetStmt) (σ : Reporting) :
    Except SheetError q.Resp × Reporting :=
  if fails q then (.error .other, σ) else
    match q with
    | .reportRestaurants =>
      (.ok ((σ.now.office.settings.filter fun s => s.reportSheetId.isSome).map fun s => s.restaurantId), σ)
    | .reportSheetId restaurantId =>
      (.ok ((σ.now.office.settings.find? fun s => s.restaurantId == restaurantId).map (·.reportSheetId)), σ)
    | .today => (.ok σ.now.clock, σ)
    | .revenueRows restaurantId clock => (.ok (revenueData σ.now.data.sessions restaurantId clock), σ)
    | .topItemsRows restaurantId clock => (.ok (topItems (topGroups σ.now.data restaurantId clock)), σ)
    | .getGspreadClient => (.ok (), σ)
    | .openByKey key => if (σ.drive key).isSome then (.ok (), σ) else (.error .other, σ)
    | .worksheet key title =>
      if (σ.drive.grid key title).isSome then (.ok (), σ) else (.error .worksheetNotFound, σ)
    | .addWorksheet key title =>
      if (σ.drive key).isSome ∧ σ.drive.grid key title = none then
        (.ok (), { σ with drive := σ.drive.set key title .blank })
      else (.error .other, σ)
    | .clear key title =>
      if (σ.drive.grid key title).isSome then (.ok (), { σ with drive := σ.drive.set key title .blank })
      else (.error .other, σ)
    | .update key title values =>
      if (σ.drive.grid key title).isSome then
        (.ok (), { σ with drive := σ.drive.set key title (((σ.drive.grid key title).getD .blank).update values) })
      else (.error .other, σ)

theorem Reporting.perform_exec (fails : SheetStmt → Bool) (q : SheetStmt) (σ : Reporting) :
    SheetExec q σ (σ.perform fails q).1 (σ.perform fails q).2 := by
  unfold Reporting.perform
  split
  · exact .failed
  · cases q with
    | reportRestaurants | reportSheetId | today | revenueRows => exact .answer rfl
    | topItemsRows => exact .answer (isTop_topItems _)
    | getGspreadClient => exact .answer trivial
    | worksheet key title =>
      dsimp only
      split_ifs with h
      · exact .answer h
      · exact .missing (by simpa using h)
    | openByKey | addWorksheet | clear | update =>
      dsimp only
      split_ifs with h
      · exact .answer h
      · exact .failed

section Grids

variable {drive : Drive} {key key' title title' : String} {g : Grid} {values : List (List Cell)}

theorem Drive.grid_set (h : (drive key).isSome = true) :
    (drive.set key title g).grid key title = some g := by
  obtain ⟨sheet, hs⟩ := Option.isSome_iff_exists.mp h
  simp [Drive.grid, Drive.set, hs]

theorem Drive.grid_set_ne (h : ¬ (key' = key ∧ title' = title)) :
    (drive.set key title g).grid key' title' = drive.grid key' title' := by
  by_cases hk : key' = key
  · subst hk
    have ht : title' ≠ title := fun ht => h ⟨rfl, ht⟩
    cases hd : drive key' with
    | none => simp [Drive.grid, Drive.set, hd]
    | some sheet => simp [Drive.grid, Drive.set, hd, ht]
  · simp [Drive.grid, Drive.set, hk]

theorem Drive.isSome_of_grid (h : (drive.grid key title).isSome = true) : (drive key).isSome = true := by
  cases hd : drive key with
  | none => simp [Drive.grid, hd] at h
  | some sheet => rfl

end Grids

end QOrder
