import QOrder.BucketIsolation
import QOrder.KitchenTickets

/-! The rows that the administrators of the restaurants edit, and the bodies of their
requests. A field of a partial update is unset, or set to a value or to null. -/

namespace QOrder

open KeyedTable MenuItemUpdate

inductive UserRole
  | staff | admin
  deriving DecidableEq, Repr

structure RestaurantRecord extends RestaurantRow where
  name : String
  deriving DecidableEq, Repr

structure SettingsRecord extends RestaurantSettings where
  currency : String := "VND"
  logoUrl : Option String := none
  timezone : String := "Asia/Ho_Chi_Minh"
  defaultSavoryMinutes : Nat := 10
  defaultLightMinutes : Nat := 5
  kitchenScreenRequiresPin : Bool := true
  reportSheetId : Option String := none
  reportSyncCron : String := "0 * * * *"
  billFooterNote : Option String := none
  deriving DecidableEq, Repr

structure TableRecord extends Table where
  tableNumber : String
  qrImageUrl : Option String := none
  deriving DecidableEq, Repr

structure CategoryRecord extends MenuCategoryRow where
  name : String
  sortOrder : Nat
  isActive : Bool := true
  deriving DecidableEq, Repr

structure UserRecord where
  id : Uuid
  restaurantId : Uuid
  role : UserRole
  email : Option String := none
  passwordHash : Option String := none
  pinHash : Option String := none
  isActive : Bool := true
  deriving DecidableEq, Repr

instance : Keyed RestaurantRecord Uuid := ⟨fun r => r.id⟩
instance : Keyed SettingsRecord Uuid := ⟨fun s => s.restaurantId⟩
instance : Keyed TableRecord Uuid := ⟨fun t => t.id⟩
instance : Keyed CategoryRecord Uuid := ⟨fun g => g.id⟩
instance : Keyed UserRecord Uuid := ⟨fun u => u.id⟩

@[simp] theorem key_restaurantRecord (r : RestaurantRecord) : key r = r.id := rfl
@[simp] theorem key_settingsRecord (s : SettingsRecord) : key s = s.restaurantId := rfl
@[simp] theorem key_tableRecord (t : TableRecord) : key t = t.id := rfl
@[simp] theorem key_categoryRecord (g : CategoryRecord) : key g = g.id := rfl
@[simp] theorem key_userRecord (u : UserRecord) : key u = u.id := rfl

structure TableCreate where
  tableNumber : String
  tableNumber_length : 1 ≤ tableNumber.length ∧ tableNumber.length ≤ 50 := by decide

structure TableUpdate where
  tableNumber : Option (Option String) := none
  isActive : Option (Option Bool) := none
  tableNumber_length : ∀ s, tableNumber = some (some s) → 1 ≤ s.length ∧ s.length ≤ 50 := by simp

structure MenuCategoryCreate where
  name : String
  sortOrder : Nat := 0
  name_length : 1 ≤ name.length ∧ name.length ≤ 200 := by decide

structure MenuCategoryUpdate where
  name : Option (Option String) := none
  sortOrder : Option (Option Nat) := none
  isActive : Option (Option Bool) := none
  name_length : ∀ s, name = some (some s) → 1 ≤ s.length ∧ s.length ≤ 200 := by simp

structure UpdateSettingsRequest where
  kitchenScreenRequiresPin : Option (Option Bool) := none
  currency : Option (Option String) := none
  logoUrl : Option (Option String) := none
  timezone : Option (Option String) := none
  defaultSavoryMinutes : Option (Option Nat) := none
  defaultLightMinutes : Option (Option Nat) := none
  sessionTimeoutHours : Option (Option Nat) := none
  staffCallCooldownSeconds : Option (Option Nat) := none
  reportSheetId : Option (Option String) := none
  reportSyncCron : Option (Option String) := none
  billFooterNote : Option (Option String) := none
  sessionTimeoutHours_pos : ∀ k, sessionTimeoutHours = some (some k) → 1 ≤ k := by simp

structure ResetPinRequest where
  newPin : String
  newPin_length : 4 ≤ newPin.length ∧ newPin.length ≤ 8 := by decide

/-- `none` where a `NOT NULL` column is set to null, as for the updates that follow. -/
def TableUpdate.apply (u : TableUpdate) (t : TableRecord) : Option TableRecord := do
  let tableNumber ← column u.tableNumber t.tableNumber
  let isActive ← column u.isActive t.isActive
  return { t with tableNumber, isActive }

def MenuCategoryUpdate.apply (u : MenuCategoryUpdate) (g : CategoryRecord) : Option CategoryRecord := do
  let name ← column u.name g.name
  let sortOrder ← column u.sortOrder g.sortOrder
  let isActive ← column u.isActive g.isActive
  return { g with name, sortOrder, isActive }

def UpdateSettingsRequest.apply (u : UpdateSettingsRequest) (s : SettingsRecord) : Option SettingsRecord := do
  let kitchenScreenRequiresPin ← column u.kitchenScreenRequiresPin s.kitchenScreenRequiresPin
  let currency ← column u.currency s.currency
  let timezone ← column u.timezone s.timezone
  let defaultSavoryMinutes ← column u.defaultSavoryMinutes s.defaultSavoryMinutes
  let defaultLightMinutes ← column u.defaultLightMinutes s.defaultLightMinutes
  let sessionTimeoutHours ← column u.sessionTimeoutHours s.sessionTimeoutHours
  let staffCallCooldownSeconds ← column u.staffCallCooldownSeconds s.staffCallCooldownSeconds
  let reportSyncCron ← column u.reportSyncCron s.reportSyncCron
  return { s with
    kitchenScreenRequiresPin, currency, timezone, defaultSavoryMinutes, defaultLightMinutes,
    sessionTimeoutHours, staffCallCooldownSeconds, reportSyncCron
    logoUrl := u.logoUrl.getD s.logoUrl
    reportSheetId := u.reportSheetId.getD s.reportSheetId
    billFooterNote := u.billFooterNote.getD s.billFooterNote }

/-- The values that the `int4` columns hold. -/
def CategoryRecord.fits (g : CategoryRecord) : Bool := decide (g.sortOrder ≤ int4Max)

def SettingsRecord.fits (s : SettingsRecord) : Bool :=
  decide (s.defaultSavoryMinutes ≤ int4Max) && decide (s.defaultLightMinutes ≤ int4Max) &&
    decide (s.sessionTimeoutHours ≤ int4Max) && decide (s.staffCallCooldownSeconds ≤ int4Max)

/-- The columns of a menu item that an order reads. -/
def MenuItemRow.toMenuItem (i : MenuItemRow) : MenuItem where
  id := i.id
  restaurantId := i.restaurantId
  name := i.name
  price := i.price
  prepTimeMinutes := i.prepTimeMinutes
  isAvailable := i.isAvailable
  isActive := i.isActive

structure Office where
  restaurants : List RestaurantRecord := []
  settings : List SettingsRecord := []
  tables : List TableRecord := []
  categories : List CategoryRecord := []
  items : List MenuItemRow := []
  users : List UserRecord := []
  store : ObjectStore := { objects := fun _ => none }

namespace Office

variable (o : Office)

/-- The columns that the ordering flow reads. -/
def catalog : Catalog where
  restaurants := o.restaurants.map fun r => ⟨r.id, r.isActive⟩
  settings := o.settings.map fun s => s.toRestaurantSettings
  tables := o.tables.map fun t => t.toTable
  menuItems := o.items.map MenuItemRow.toMenuItem

/-- The columns that the guard of the kitchen's tickets reads. -/
def accounts : Accounts where
  restaurants := o.restaurants.map fun r => r.toRestaurantRow
  settings := o.settings.map fun s => ⟨s.restaurantId, s.kitchenScreenRequiresPin⟩

/-- The tables that the menu's endpoints work on. -/
def menuState (nextUuid : Uuid) : MenuState where
  tables := o.tables.map fun t => t.toTable
  categories := o.categories.map fun g => g.toMenuCategoryRow
  items := o.items
  store := o.store
  nextUuid := nextUuid

def withMenu (σ : MenuState) : Office := { o with items := σ.items, store := σ.store }

/-- Another table has the token, or the number within the restaurant. -/
def tableConflict (row : TableRecord) : Bool :=
  o.tables.any fun t => t.id != row.id &&
    (t.qrToken == row.qrToken || (t.restaurantId == row.restaurantId && t.tableNumber == row.tableNumber))

end Office

end QOrder
