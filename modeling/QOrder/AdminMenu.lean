import QOrder.ChannelNames
import QOrder.ObjectStorage
import QOrder.Routers

/-! The menu items as administrators edit them, with their photos in the object store. -/

namespace QOrder

open KeyedTable

/-- A row of `menu_categories`. -/
structure MenuCategoryRow where
  id : Uuid
  restaurantId : Uuid
  deriving DecidableEq, Repr

/-- A row of `menu_items`. -/
structure MenuItemRow where
  id : Uuid
  restaurantId : Uuid
  categoryId : Option Uuid
  name : String
  description : Option String
  price : Money
  prepTimeMinutes : Nat
  isAvailable : Bool := true
  isActive : Bool := true
  imageUrl : Option String
  imageLargeUrl : Option String := none
  isFeatured : Bool
  sortOrder : Nat
  deriving DecidableEq, Repr

instance : Keyed MenuItemRow Uuid := ⟨MenuItemRow.id⟩

@[simp] theorem key_menuItemRow (i : MenuItemRow) : key i = i.id := rfl

/-- The value, in hundredths, that `NUMERIC(12,2)` rounds the `Decimal` of a request to. -/
def toNumeric (amount : Rat) : Money := (amount * 100 + 1 / 2).floor

structure MenuItemCreate where
  name : String
  description : Option String := none
  price : Rat
  prepTimeMinutes : Nat
  categoryId : Option Uuid := none
  imageUrl : Option String := none
  isFeatured : Bool := false
  sortOrder : Nat := 0
  name_length : 1 ≤ name.length ∧ name.length ≤ 300 := by decide
  price_nonneg : 0 ≤ price := by decide

/-- The fields that are set; each may be set to null. -/
structure MenuItemUpdate where
  name : Option (Option String) := none
  description : Option (Option String) := none
  price : Option (Option Rat) := none
  prepTimeMinutes : Option (Option Nat) := none
  categoryId : Option (Option Uuid) := none
  isAvailable : Option (Option Bool) := none
  isActive : Option (Option Bool) := none
  imageUrl : Option (Option String) := none
  isFeatured : Option (Option Bool) := none
  sortOrder : Option (Option Nat) := none
  name_length : ∀ s, name = some (some s) → 1 ≤ s.length ∧ s.length ≤ 300 := by simp
  price_nonneg : ∀ p, price = some (some p) → 0 ≤ p := by simp

inductive MenuError
  | http (statusCode : Nat) (detail : String)
  /-- An exception of the database, or one of the object store. -/
  | database
  | storage
  | multipleResultsFound
  deriving DecidableEq, Repr

structure UploadFile where
  contentType : Option String
  bytes : Blob

/-- `process_menu_image`: the thumbnail and the large variant, or the message of the
`ImageValidationError`. -/
structure ImageLibrary where
  processMenuImage : Blob → Except String (Blob × Blob)

structure MenuState where
  tables : List Table
  categories : List MenuCategoryRow
  items : List MenuItemRow
  store : ObjectStore
  nextUuid : Uuid

def maxUploadBytes : Nat := 8 * 1024 * 1024

def allowedContentTypes : List String := ["image/jpeg", "image/png", "image/webp"]

/-- The value of a `NOT NULL` column after a field is applied; `none` is null. -/
def MenuItemUpdate.column {α : Type} (field : Option (Option α)) (value : α) : Option α :=
  field.getD (some value)

/-- `none` where a `NOT NULL` column is set to null. -/
def MenuItemUpdate.apply (u : MenuItemUpdate) (i : MenuItemRow) : Option MenuItemRow := do
  let name ← column u.name i.name
  let price ← column (u.price.map (Option.map toNumeric)) i.price
  let prepTimeMinutes ← column u.prepTimeMinutes i.prepTimeMinutes
  let isAvailable ← column u.isAvailable i.isAvailable
  let isActive ← column u.isActive i.isActive
  let isFeatured ← column u.isFeatured i.isFeatured
  let sortOrder ← column u.sortOrder i.sortOrder
  return { i with
    name, price, prepTimeMinutes, isAvailable, isActive, isFeatured, sortOrder
    description := u.description.getD i.description
    categoryId := u.categoryId.getD i.categoryId
    imageUrl := u.imageUrl.getD i.imageUrl }

/-- The values that `NUMERIC(12,2)` and `int4` hold. -/
def MenuItemRow.fits (i : MenuItemRow) : Bool :=
  decide (i.price < numericLimit) && decide (i.prepTimeMinutes ≤ int4Max) && decide (i.sortOrder ≤ int4Max)

def thumbKey (itemId : Uuid) (version : Int) : String :=
  "menu/" ++ uuidStr itemId ++ "/thumb-" ++ toString version ++ ".webp"

def largeKey (itemId : Uuid) (version : Int) : String :=
  "menu/" ++ uuidStr itemId ++ "/large-" ++ toString version ++ ".webp"

/-- `_discard_images` -/
def discardImages (settings : StorageSettings) (c : Conditions) :
    List (Option String) → ObjectStore → ObjectStore
  | [], store => store
  | url :: urls, store =>
    discardImages settings c urls <|
      match (url.filter (· ≠ "")).bind (keyFromPublicUrl settings) with
      | some key => deleteFile c store key
      | none => store

/-- What a request looks at in the uploaded file before it stores anything. -/
def checkImage (lib : ImageLibrary) (file : UploadFile) : Except MenuError (Blob × Blob) :=
  if ¬ file.contentType.any allowedContentTypes.contains then
    .error (.http 400 "Chỉ nhận ảnh JPEG, PNG hoặc WebP.")
  else if maxUploadBytes < file.bytes.length then
    .error (.http 413 ("Ảnh vượt quá " ++ toString (maxUploadBytes / (1024 * 1024)) ++ "MB."))
  else if file.bytes = [] then .error (.http 400 "Tệp ảnh rỗng.")
  else (lib.processMenuImage file.bytes).mapError (.http 400)

namespace MenuState

variable (settings : StorageSettings) (lib : ImageLibrary) (user : TokenPayload) (c : Conditions)
  (σ : MenuState)

def ownItem (itemId : Uuid) : Option MenuItemRow :=
  σ.items.find? fun i => i.id == itemId && i.restaurantId == user.restaurantId

def itemMissing : MenuError := .http 404 "Menu item not found"

/-- The category, where one is given, is one of the restaurant. -/
def ownsCategory (categoryId : Option Uuid) : Bool :=
  categoryId.all fun k => σ.categories.any fun g => g.id == k && g.restaurantId == user.restaurantId

def categoryMissing : MenuError :=
  .http 400 "Category not found or does not belong to this restaurant"

/-- The flush and the commit of one row. -/
def save (row : MenuItemRow) : Except MenuError MenuItemRow × MenuState :=
  if row.fits && c.commits then (.ok row, { σ with items := overlay σ.items [row] })
  else (.error .database, σ)

def createMenuItem (body : MenuItemCreate) : Except MenuError MenuItemRow × MenuState :=
  if σ.ownsCategory user body.categoryId then
    save c { σ with nextUuid := σ.nextUuid + 1 }
      { id := σ.nextUuid, restaurantId := user.restaurantId, categoryId := body.categoryId
        name := body.name, description := body.description, price := toNumeric body.price
        prepTimeMinutes := body.prepTimeMinutes, imageUrl := body.imageUrl
        isFeatured := body.isFeatured, sortOrder := body.sortOrder }
  else (.error categoryMissing, σ)

def updateMenuItem (itemId : Uuid) (body : MenuItemUpdate) : Except MenuError MenuItemRow × MenuState :=
  match σ.ownItem user itemId with
  | none => (.error itemMissing, σ)
  | some item =>
    if σ.ownsCategory user (body.categoryId.getD none) then
      match body.apply item with
      | none => (.error .database, σ)
      | some row => σ.save c row
    else (.error categoryMissing, σ)

/-- Both variants are stored before the row is saved, and the former images deleted last. -/
def uploadMenuItemImage (itemId : Uuid) (file : UploadFile) : Except MenuError MenuItemRow × MenuState :=
  match σ.ownItem user itemId with
  | none => (.error itemMissing, σ)
  | some item =>
    match checkImage lib file with
    | .error e => (.error e, σ)
    | .ok (thumb, large) =>
      let (thumbUrl, store) := uploadFile settings c σ.store (thumbKey item.id c.now) thumb
      let (largeUrl, store) := uploadFile settings c store (largeKey item.id c.now) large
      match thumbUrl, largeUrl with
      | some thumbUrl, some largeUrl =>
        let row := { item with imageUrl := some thumbUrl, imageLargeUrl := some largeUrl }
        if c.commits then
          (.ok row,
            { σ with
              items := overlay σ.items [row]
              store := discardImages settings c [item.imageUrl, item.imageLargeUrl] store })
        else (.error .database, { σ with store })
      | _, _ => (.error .storage, { σ with store })

def deleteMenuItemImage (itemId : Uuid) : Except MenuError MenuItemRow × MenuState :=
  match σ.ownItem user itemId with
  | none => (.error itemMissing, σ)
  | some item =>
    let row := { item with imageUrl := none, imageLargeUrl := none }
    if c.commits then
      (.ok row,
        { σ with
          items := overlay σ.items [row]
          store := discardImages settings c [item.imageUrl, item.imageLargeUrl] σ.store })
    else (.error .database, σ)

end MenuState

inductive MenuRequest
  | createMenuItem (body : MenuItemCreate)
  | updateMenuItem (itemId : Uuid) (body : MenuItemUpdate)
  | uploadMenuItemImage (itemId : Uuid) (file : UploadFile)
  | deleteMenuItemImage (itemId : Uuid)

structure MenuCall where
  request : MenuRequest
  conditions : Conditions

def MenuCall.handle (settings : StorageSettings) (lib : ImageLibrary) (user : TokenPayload)
    (σ : MenuState) (call : MenuCall) : Except MenuError MenuItemRow × MenuState :=
  match call.request with
  | .createMenuItem body => σ.createMenuItem user call.conditions body
  | .updateMenuItem itemId body => σ.updateMenuItem user call.conditions itemId body
  | .uploadMenuItemImage itemId file =>
    σ.uploadMenuItemImage settings lib user call.conditions itemId file
  | .deleteMenuItemImage itemId => σ.deleteMenuItemImage settings user call.conditions itemId

/-- A sequence of requests of one administrator. -/
def MenuState.run (settings : StorageSettings) (lib : ImageLibrary) (user : TokenPayload)
    (σ : MenuState) (calls : List MenuCall) : MenuState :=
  calls.foldl (fun σ call => (call.handle settings lib user σ).2) σ

end QOrder
