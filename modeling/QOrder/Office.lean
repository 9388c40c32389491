import QOrder.OfficeSchema

/-! The endpoints of the administrators. Each is one transaction on the rows of the office,
for the restaurant of the caller's token. -/

namespace QOrder

open KeyedTable

/-- The settings of the process, and the libraries that draw, scale, hash and collate. -/
structure AdminLibrary where
  storage : StorageSettings
  baseUrl : String
  images : ImageLibrary
  makeQr : String → Blob
  hashPin : String → String
  collate : String → String → Bool

/-- What befalls one request, the id it generates, and its `secrets.token_urlsafe(16)`. -/
structure Draws where
  conditions : Conditions
  nextUuid : Uuid
  qrToken : String

structure PrepTimePresetsResponse where
  defaultSavoryMinutes : Nat
  defaultLightMinutes : Nat
  deriving DecidableEq, Repr

namespace Office

variable (lib : AdminLibrary) (user : TokenPayload) (draws : Draws) (o : Office)

section Tables

def getRestaurantSlug : Option String :=
  (o.restaurants.find? fun r => r.id == user.restaurantId).map fun r => r.slug

def restaurantMissing : MenuError := .http 404 "Restaurant not found"

def tableMissing : MenuError := .http 404 "Table not found"

def buildQrUrl (slug qrToken : String) : String := lib.baseUrl ++ "/" ++ slug ++ "/t/" ++ qrToken

def ownTable (tableId : Uuid) : Option TableRecord :=
  o.tables.find? fun t => t.id == tableId && t.restaurantId == user.restaurantId

def saveTable (row : TableRecord) : Except MenuError TableRecord × Office :=
  if !o.tableConflict row && draws.conditions.commits then
    (.ok row, { o with tables := overlay o.tables [row] })
  else (.error .database, o)

/-- The picture of the row's token is stored before the row is committed. -/
def saveWithQr (slug : String) (row : TableRecord) : Except MenuError TableRecord × Office :=
  let (imageUrl, store) := uploadFile lib.storage draws.conditions o.store (qrKey row.id)
    (lib.makeQr (buildQrUrl lib slug row.qrToken))
  match imageUrl with
  | none => (.error .storage, { o with store })
  | some imageUrl => saveTable draws { o with store } { row with qrImageUrl := some imageUrl }

def createTable (body : TableCreate) : Except MenuError TableRecord × Office :=
  match o.getRestaurantSlug user with
  | none => (.error restaurantMissing, o)
  | some slug =>
    let table : TableRecord :=
      { id := draws.nextUuid, restaurantId := user.restaurantId, qrToken := draws.qrToken
        tableNumber := body.tableNumber }
    -- The flush raises before a picture is stored.
    if o.tableConflict table then (.error .database, o) else o.saveWithQr lib draws slug table

def listTables : List TableRecord :=
  (o.tables.filter fun t => t.restaurantId == user.restaurantId).mergeSort fun a b =>
    lib.collate a.tableNumber b.tableNumber

def updateTable (tableId : Uuid) (body : TableUpdate) : Except MenuError TableRecord × Office :=
  match o.ownTable user tableId with
  | none => (.error tableMissing, o)
  | some table =>
    match body.apply table with
    | none => (.error .database, o)
    | some row => o.saveTable draws row

def regenerateQr (tableId : Uuid) : Except MenuError TableRecord × Office :=
  match o.ownTable user tableId with
  | none => (.error tableMissing, o)
  | some table =>
    match o.getRestaurantSlug user with
    | none => (.error restaurantMissing, o)
    | some slug => o.saveWithQr lib draws slug { table with qrToken := draws.qrToken }

def getQrImage (tableId : Uuid) : Except MenuError Blob :=
  match o.ownTable user tableId with
  | none => .error tableMissing
  | some table =>
    match o.getRestaurantSlug user with
    | none => .error restaurantMissing
    | some slug => .ok (lib.makeQr (buildQrUrl lib slug table.qrToken))

end Tables

section Menu

def ownCategory (categoryId : Uuid) : Option CategoryRecord :=
  o.categories.find? fun g => g.id == categoryId && g.restaurantId == user.restaurantId

def saveCategory (row : CategoryRecord) : Except MenuError CategoryRecord × Office :=
  if row.fits && draws.conditions.commits then
    (.ok row, { o with categories := overlay o.categories [row] })
  else (.error .database, o)

def createMenuCategory (body : MenuCategoryCreate) : Except MenuError CategoryRecord × Office :=
  o.saveCategory draws
    { id := draws.nextUuid, restaurantId := user.restaurantId, name := body.name
      sortOrder := body.sortOrder }

/-- `ORDER BY sort_order, name` -/
def listed (a b : Nat × String) : Bool := a.1 < b.1 || (a.1 == b.1 && lib.collate a.2 b.2)

def listMenuCategories : List CategoryRecord :=
  (o.categories.filter fun g => g.restaurantId == user.restaurantId).mergeSort fun a b =>
    listed lib (a.sortOrder, a.name) (b.sortOrder, b.name)

def updateMenuCategory (categoryId : Uuid) (body : MenuCategoryUpdate) :
    Except MenuError CategoryRecord × Office :=
  match o.ownCategory user categoryId with
  | none => (.error (.http 404 "Menu category not found"), o)
  | some category =>
    match body.apply category with
    | none => (.error .database, o)
    | some row => o.saveCategory draws row

def listMenuItems : List MenuItemRow :=
  (o.items.filter fun i => i.restaurantId == user.restaurantId).mergeSort fun a b =>
    listed lib (a.sortOrder, a.name) (b.sortOrder, b.name)

/-- The endpoints that write menu items. -/
def handleMenu (request : MenuRequest) : Except MenuError MenuItemRow × Office :=
  let out := MenuCall.handle lib.storage lib.images user (o.menuState draws.nextUuid) ⟨request, draws.conditions⟩
  (out.1, o.withMenu out.2)

end Menu

section Settings

def ownSettings : Option SettingsRecord :=
  o.settings.find? fun s => s.restaurantId == user.restaurantId

def settingsMissing : MenuError := .http 404 "Restaurant settings not found"

def getSettings : Except MenuError SettingsRecord :=
  match o.ownSettings user with
  | none => .error settingsMissing
  | some settings => .ok settings

def updateSettings (body : UpdateSettingsRequest) : Except MenuError SettingsRecord × Office :=
  match o.ownSettings user with
  | none => (.error settingsMissing, o)
  | some settings =>
    match body.apply settings with
    | none => (.error .database, o)
    | some row =>
      if row.fits && draws.conditions.commits then
        (.ok row, { o with settings := overlay o.settings [row] })
      else (.error .database, o)

/-- Sensible defaults where the restaurant has no settings. -/
def getPrepTimePresets : PrepTimePresetsResponse :=
  match o.ownSettings user with
  | none => ⟨10, 5⟩
  | some settings => ⟨settings.defaultSavoryMinutes, settings.defaultLightMinutes⟩

def activeStaff : List UserRecord :=
  o.users.filter fun u => u.restaurantId == user.restaurantId && u.role == .staff && u.isActive

def resetStaffPin (body : ResetPinRequest) : Except MenuError String × Office :=
  match o.activeStaff user with
  | [] => (.error (.http 404 "No active staff user found for this restaurant"), o)
  | [staff] =>
    if draws.conditions.commits then
      (.ok "PIN reset successfully",
        { o with users := overlay o.users [{ staff with pinHash := some (lib.hashPin body.newPin) }] })
    else (.error .database, o)
  | _ => (.error .multipleResultsFound, o)

end Settings

end Office

inductive AdminRequest
  | createTable (body : TableCreate)
  | listTables
  | updateTable (tableId : Uuid) (body : TableUpdate)
  | regenerateQr (tableId : Uuid)
  | getQrImage (tableId : Uuid)
  | createMenuCategory (body : MenuCategoryCreate)
  | listMenuCategories
  | updateMenuCategory (categoryId : Uuid) (body : MenuCategoryUpdate)
  | menu (request : MenuRequest)
  | listMenuItems
  | getPrepTimePresets
  | getSettings
  | updateSettings (body : UpdateSettingsRequest)
  | resetStaffPin (body : ResetPinRequest)

inductive AdminResponse
  | table (row : TableRecord)
  | tables (rows : List TableRecord)
  | picture (png : Blob)
  | category (row : CategoryRecord)
  | categories (rows : List CategoryRecord)
  | item (row : MenuItemRow)
  | items (rows : List MenuItemRow)
  | presets (presets : PrepTimePresetsResponse)
  | settings (row : SettingsRecord)
  | message (text : String)
  deriving DecidableEq, Repr

/-- The answer of a request, and the office it leaves. -/
def AdminRequest.handle (lib : AdminLibrary) (user : TokenPayload) (draws : Draws) (o : Office) :
    AdminRequest → Except MenuError AdminResponse × Office
  | createTable body => (o.createTable lib user draws body).map (Except.map .table) id
  | listTables => (.ok (.tables (o.listTables lib user)), o)
  | updateTable tableId body => (o.updateTable user draws tableId body).map (Except.map .table) id
  | regenerateQr tableId => (o.regenerateQr lib user draws tableId).map (Except.map .table) id
  | getQrImage tableId => ((o.getQrImage lib user tableId).map .picture, o)
  | createMenuCategory body => (o.createMenuCategory user draws body).map (Except.map .category) id
  | listMenuCategories => (.ok (.categories (o.listMenuCategories lib user)), o)
  | updateMenuCategory categoryId body =>
    (o.updateMenuCategory user draws categoryId body).map (Except.map .category) id
  | menu request => (o.handleMenu lib user draws request).map (Except.map .item) id
  | listMenuItems => (.ok (.items (o.listMenuItems lib user)), o)
  | getPrepTimePresets => (.ok (.presets (o.getPrepTimePresets user)), o)
  | getSettings => ((o.getSettings user).map .settings, o)
  | updateSettings body => (o.updateSettings user draws body).map (Except.map .settings) id
  | resetStaffPin body => (o.resetStaffPin lib user draws body).map (Except.map .message) id

end QOrder
