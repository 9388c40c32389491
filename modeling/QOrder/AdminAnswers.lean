import QOrder.BodyAnswers

/-! Which requests of an administrator are served: the rows they name exist, the columns hold what
they set, and the database and the object store carry it out. A refused one changes no row. -/

namespace QOrder

open KeyedTable MenuItemUpdate

variable {lib : AdminLibrary} {user : TokenPayload} {draws : Draws} {o : Office} {α β : Type}

/-- What is asked of a row by its key and its restaurant. -/
theorem find_own {V : Type} [Keyed V Uuid] {rows : List V} {restaurant : V → Uuid} {id restaurantId : Uuid}
    {P : V → Prop} (hk : UniqueKeys rows) : (∃ r ∈ rows, key r = id ∧ restaurant r = restaurantId ∧ P r) ↔
      ∃ r, (rows.find? fun r => key r == id && restaurant r == restaurantId) = some r ∧ P r := by
  constructor
  · rintro ⟨r, hr, hid, hrestaurant, hp⟩
    cases hfind : rows.find? fun r => key r == id && restaurant r == restaurantId with
    | none =>
      have hnone := List.find?_eq_none.mp hfind r hr
      simp [hid, hrestaurant] at hnone
    | some r' =>
      have hp' := List.find?_some hfind
      simp only [Bool.and_eq_true, beq_iff_eq] at hp'
      obtain rfl := eq_of_key_eq hk (List.mem_of_find?_eq_some hfind) hr (hp'.1.trans hid.symm)
      exact ⟨r', rfl, hp⟩
  · rintro ⟨r, hfind, hp⟩
    have hp' := List.find?_some hfind
    simp only [Bool.and_eq_true, beq_iff_eq] at hp'
    exact ⟨r, List.mem_of_find?_eq_some hfind, hp'.1, hp'.2, hp⟩

theorem exists_eq_some {x : α} {P : α → Prop} : (∃ y, some x = some y ∧ P y) ↔ P x := by
  simp

/-- The request has raised, and the rows are as they were. Objects of the store are no rows. -/
def Office.Denies (o : Office) (out : Except MenuError α × Office) : Prop :=
  (∃ e, out.1 = .error e) ∧ { out.2 with store := o.store } = o

namespace Office

variable {out : Except MenuError α × Office}

theorem denies_error (e : MenuError) (store : ObjectStore) :
    o.Denies (Except.error (α := α) e, { o with store }) := ⟨⟨e, rfl⟩, rfl⟩

theorem not_denies_ok (a : α) (o' : Office) : ¬ o.Denies (Except.ok a, o') := by
  rintro ⟨⟨e, he⟩, -⟩
  cases he

theorem denies_map {f : α → β} : o.Denies (out.map (Except.map f) id) ↔ o.Denies out := by
  obtain ⟨answer, o'⟩ := out
  cases answer with
  | ok a => exact iff_of_false (not_denies_ok (f a) o') (not_denies_ok a o')
  | error e => exact ⟨fun h => ⟨⟨e, rfl⟩, h.2⟩, fun h => ⟨⟨e, rfl⟩, h.2⟩⟩

/-- A flush and a commit that raise exactly where a check fails. -/
theorem denies_if {b : Bool} {a : α} {o' : Office} {e : MenuError} (store : ObjectStore) :
    o.Denies (if b then (.ok a, o') else (.error e, { o with store })) ↔ ¬ b = true := by
  cases b with
  | true => exact iff_of_false (not_denies_ok a o') (fun h => h rfl)
  | false => exact iff_of_true (denies_error e store) Bool.false_ne_true

section Tables

theorem denies_saveTable {row : TableRecord} (store : ObjectStore) :
    o.Denies (saveTable draws { o with store } row) ↔
      ¬ (o.tableConflict row = false ∧ draws.conditions.commits = true) := by
  unfold saveTable
  rw [denies_if store]
  change ¬ (!o.tableConflict row && draws.conditions.commits) = true ↔ _
  rw [Bool.and_eq_true, Bool.not_eq_true']

theorem denies_saveWithQr {slug : String} {row : TableRecord} : o.Denies (o.saveWithQr lib draws slug row) ↔
    ¬ (o.tableConflict row = false ∧ draws.conditions.put (qrKey row.id) = .stored ∧
      draws.conditions.commits = true) := by
  have hurl : (uploadFile lib.storage draws.conditions o.store (qrKey row.id)
      (lib.makeQr (buildQrUrl lib slug row.qrToken))).1 =
        if draws.conditions.put (qrKey row.id) = .stored then some (getPublicUrl lib.storage (qrKey row.id)) else none :=
    ObjectStore.uploadFile_url
  unfold saveWithQr
  generalize uploadFile lib.storage draws.conditions o.store (qrKey row.id)
    (lib.makeQr (buildQrUrl lib slug row.qrToken)) = out at hurl
  obtain ⟨imageUrl, store⟩ := out
  by_cases hput : draws.conditions.put (qrKey row.id) = .stored
  · rw [if_pos hput] at hurl
    obtain rfl : imageUrl = _ := hurl
    dsimp only
    rw [denies_saveTable store]
    exact not_congr ⟨fun h => ⟨h.1, hput, h.2⟩, fun h => ⟨h.1, h.2.2⟩⟩
  · rw [if_neg hput] at hurl
    obtain rfl : imageUrl = none := hurl
    exact iff_of_true (denies_error .storage store) fun h => hput h.2.1

/-- The slug of a restaurant that exists. -/
theorem getRestaurantSlug_some (h : ∃ r ∈ o.restaurants, r.id = user.restaurantId) :
    ∃ slug, o.getRestaurantSlug user = some slug := by
  refine Option.ne_none_iff_exists'.mp fun hnone => ?_
  obtain ⟨r, hr, hid⟩ := h
  have hfind := List.find?_eq_none.mp (Option.map_eq_none_iff.mp hnone) r hr
  simp [hid] at hfind

/-- The row that `create_table` is to insert. -/
def newTable (user : TokenPayload) (draws : Draws) (body : TableCreate) : TableRecord where
  id := draws.nextUuid
  restaurantId := user.restaurantId
  qrToken := draws.qrToken
  isActive := true
  tableNumber := body.tableNumber

theorem denies_createTable (hr : ∃ r ∈ o.restaurants, r.id = user.restaurantId) (body : TableCreate) :
    o.Denies (o.createTable lib user draws body) ↔ ¬ (o.tableConflict (newTable user draws body) = false ∧
      draws.conditions.put (qrKey draws.nextUuid) = .stored ∧ draws.conditions.commits = true) := by
  obtain ⟨slug, hslug⟩ := getRestaurantSlug_some hr
  unfold createTable
  rw [hslug]
  change o.Denies (if o.tableConflict (newTable user draws body) = true then _
    else o.saveWithQr lib draws slug (newTable user draws body)) ↔ _
  by_cases hc : o.tableConflict (newTable user draws body) = true
  · rw [if_pos hc]
    refine iff_of_true (denies_error .database o.store) fun h => ?_
    rw [hc] at h
    cases h.1
  · rw [if_neg hc]
    exact denies_saveWithQr

theorem ownTable_iff (h : o.Lawful) {tableId : Uuid} {P : TableRecord → Prop} :
    (∃ t ∈ o.tables, t.id = tableId ∧ t.restaurantId = user.restaurantId ∧ P t) ↔
      ∃ t, o.ownTable user tableId = some t ∧ P t :=
  find_own h.tableIds

theorem denies_updateTable (h : o.Lawful) (tableId : Uuid) (body : TableUpdate) :
    o.Denies (o.updateTable user draws tableId body) ↔ ¬ ∃ t ∈ o.tables, t.id = tableId ∧
      t.restaurantId = user.restaurantId ∧ body.Writable o t ∧ draws.conditions.commits = true := by
  rw [ownTable_iff h]
  unfold updateTable
  cases hown : o.ownTable user tableId with
  | none => exact iff_of_true (denies_error tableMissing o.store) nofun
  | some t =>
    have happly := TableUpdate.apply_free (u := body) (ownTable_some hown).1 h
    rw [exists_eq_some, ← happly]
    dsimp only
    cases happly : body.apply t with
    | none => exact iff_of_true (denies_error .database o.store) nofun
    | some row =>
      rw [exists_eq_some]
      exact denies_saveTable o.store

theorem denies_regenerateQr (h : o.Lawful) (hr : ∃ r ∈ o.restaurants, r.id = user.restaurantId) (tableId : Uuid) :
    o.Denies (o.regenerateQr lib user draws tableId) ↔ ¬ ∃ t ∈ o.tables, t.id = tableId ∧
      t.restaurantId = user.restaurantId ∧ o.tableConflict { t with qrToken := draws.qrToken } = false ∧
        draws.conditions.put (qrKey t.id) = .stored ∧ draws.conditions.commits = true := by
  obtain ⟨slug, hslug⟩ := getRestaurantSlug_some hr
  rw [ownTable_iff h]
  unfold regenerateQr
  cases hown : o.ownTable user tableId with
  | none => exact iff_of_true (denies_error tableMissing o.store) nofun
  | some t =>
    rw [exists_eq_some, hslug]
    exact denies_saveWithQr

theorem denies_getQrImage (h : o.Lawful) (hr : ∃ r ∈ o.restaurants, r.id = user.restaurantId) (tableId : Uuid) :
    o.Denies (o.getQrImage lib user tableId, o) ↔
      ¬ ∃ t ∈ o.tables, t.id = tableId ∧ t.restaurantId = user.restaurantId := by
  obtain ⟨slug, hslug⟩ := getRestaurantSlug_some hr
  have hown : (∃ t ∈ o.tables, t.id = tableId ∧ t.restaurantId = user.restaurantId ∧ True) ↔ _ := ownTable_iff h
  simp only [and_true] at hown
  rw [hown]
  unfold getQrImage
  cases hown : o.ownTable user tableId with
  | none => exact iff_of_true (denies_error tableMissing o.store) nofun
  | some t =>
    rw [hslug]
    exact iff_of_false (not_denies_ok _ o) fun hno => hno ⟨t, rfl⟩

end Tables

section Menu

theorem denies_saveCategory {row : CategoryRecord} : o.Denies (o.saveCategory draws row) ↔
    ¬ (row.fits = true ∧ draws.conditions.commits = true) := by
  unfold saveCategory
  rw [denies_if o.store, Bool.and_eq_true]

theorem denies_createMenuCategory (body : MenuCategoryCreate) : o.Denies (o.createMenuCategory user draws body) ↔
    ¬ (body.sortOrder ≤ int4Max ∧ draws.conditions.commits = true) := by
  have hsave : o.Denies (o.createMenuCategory user draws body) ↔ _ := denies_saveCategory
  rw [hsave, CategoryRecord.fits, decide_eq_true_iff]

theorem denies_updateMenuCategory (h : o.Lawful) (categoryId : Uuid) (body : MenuCategoryUpdate) :
    o.Denies (o.updateMenuCategory user draws categoryId body) ↔ ¬ ∃ g ∈ o.categories, g.id = categoryId ∧
      g.restaurantId = user.restaurantId ∧ body.Writable ∧ draws.conditions.commits = true := by
  have hown : (∃ g ∈ o.categories, g.id = categoryId ∧ g.restaurantId = user.restaurantId ∧ body.Writable ∧
      draws.conditions.commits = true) ↔ ∃ g, o.ownCategory user categoryId = some g ∧ body.Writable ∧
        draws.conditions.commits = true := find_own h.categoryIds
  rw [hown]
  unfold updateMenuCategory
  cases hown : o.ownCategory user categoryId with
  | none => exact iff_of_true (denies_error (.http 404 "Menu category not found") o.store) nofun
  | some g =>
    have hfits := MenuCategoryUpdate.apply_fits (u := body) (h.categories g (ownCategory_some hown).1)
    rw [exists_eq_some, ← hfits]
    dsimp only
    cases happly : body.apply g with
    | none => exact iff_of_true (denies_error .database o.store) nofun
    | some row =>
      rw [exists_eq_some]
      exact denies_saveCategory

theorem ownItem_iff (h : o.Lawful) {itemId : Uuid} {P : MenuItemRow → Prop} :
    (∃ i ∈ o.items, i.id = itemId ∧ i.restaurantId = user.restaurantId ∧ P i) ↔
      ∃ i, (o.menuState draws.nextUuid).ownItem user itemId = some i ∧ P i :=
  find_own h.itemIds

end Menu

end Office

/-- The request has raised, and the menu items are as they were. -/
def MenuState.Denies (σ : MenuState) (out : Except MenuError MenuItemRow × MenuState) : Prop :=
  (∃ e, out.1 = .error e) ∧ out.2.items = σ.items

section MenuItems

variable {σ σ' : MenuState} {c : Conditions} {settings : StorageSettings} {images : ImageLibrary} {itemId : Uuid}

theorem MenuState.not_denies_ok (row : MenuItemRow) : ¬ σ.Denies (.ok row, σ') := by
  rintro ⟨⟨e, he⟩, -⟩
  cases he

theorem MenuState.denies_error (e : MenuError) (h : σ'.items = σ.items) : σ.Denies (.error e, σ') := ⟨⟨e, rfl⟩, h⟩

theorem MenuState.denies_save (h : σ'.items = σ.items) {row : MenuItemRow} :
    σ.Denies (σ'.save c row) ↔ ¬ (row.fits = true ∧ c.commits = true) := by
  unfold MenuState.save
  by_cases hs : (row.fits && c.commits) = true
  · rw [if_pos hs]
    exact iff_of_false (not_denies_ok row) (not_not_intro (Bool.and_eq_true_iff.mp hs))
  · rw [if_neg hs]
    exact iff_of_true (denies_error .database h) (mt Bool.and_eq_true_iff.mpr hs)

theorem MenuState.denies_createMenuItem (body : MenuItemCreate) : σ.Denies (σ.createMenuItem user c body) ↔
    ¬ (σ.ownsCategory user body.categoryId = true ∧
      (toNumeric body.price < numericLimit ∧ body.prepTimeMinutes ≤ int4Max ∧ body.sortOrder ≤ int4Max) ∧
        c.commits = true) := by
  unfold MenuState.createMenuItem
  by_cases hc : σ.ownsCategory user body.categoryId = true
  · rw [if_pos hc]
    refine (denies_save rfl).trans (not_congr ?_)
    simp [MenuItemRow.fits, hc, and_assoc]
  · rw [if_neg hc]
    exact iff_of_true (denies_error MenuState.categoryMissing rfl) fun h => hc h.1

theorem MenuState.denies_updateMenuItem (hfits : ∀ i ∈ σ.items, i.fits = true) (body : MenuItemUpdate) :
    σ.Denies (σ.updateMenuItem user c itemId body) ↔ ¬ ∃ i, σ.ownItem user itemId = some i ∧
      σ.ownsCategory user (body.categoryId.getD none) = true ∧ body.Writable ∧ c.commits = true := by
  unfold MenuState.updateMenuItem
  cases hown : σ.ownItem user itemId with
  | none => exact iff_of_true (denies_error MenuState.itemMissing rfl) nofun
  | some i =>
    rw [exists_eq_some]
    dsimp only
    by_cases hc : σ.ownsCategory user (body.categoryId.getD none) = true
    · rw [if_pos hc, ← MenuItemUpdate.apply_fits (hfits i (ownItem_some hown).1)]
      cases happly : body.apply i with
      | none => exact iff_of_true (denies_error .database rfl) nofun
      | some row =>
        rw [exists_eq_some]
        exact (denies_save rfl).trans (not_congr (and_iff_right hc).symm)
    · rw [if_neg hc]
      exact iff_of_true (denies_error MenuState.categoryMissing rfl) fun h => hc h.1

theorem MenuState.denies_uploadMenuItemImage (file : UploadFile) :
    σ.Denies (σ.uploadMenuItemImage settings images user c itemId file) ↔ ¬ ∃ i, σ.ownItem user itemId = some i ∧
      (∃ variants, checkImage images file = .ok variants) ∧ c.put (thumbKey i.id c.now) = .stored ∧
        c.put (largeKey i.id c.now) = .stored ∧ c.commits = true := by
  unfold MenuState.uploadMenuItemImage
  cases hown : σ.ownItem user itemId with
  | none => exact iff_of_true (denies_error MenuState.itemMissing rfl) nofun
  | some i =>
    rw [exists_eq_some]
    cases hcheck : checkImage images file with
    | error e => exact iff_of_true (denies_error e rfl) nofun
    | ok variants =>
      obtain ⟨thumb, large⟩ := variants
      simp only [ObjectStore.uploadFile_url]
      by_cases ht : c.put (thumbKey i.id c.now) = .stored
      · by_cases hl : c.put (largeKey i.id c.now) = .stored
        · rw [if_pos ht, if_pos hl]
          dsimp only
          by_cases hc : c.commits = true
          · rw [if_pos hc]
            exact iff_of_false (not_denies_ok _) fun hno => hno ⟨⟨_, rfl⟩, ht, hl, hc⟩
          · rw [if_neg hc]
            exact iff_of_true (denies_error .database rfl) fun h => hc h.2.2.2
        · rw [if_pos ht, if_neg hl]
          exact iff_of_true (denies_error .storage rfl) fun h => hl h.2.2.1
      · rw [if_neg ht]
        exact iff_of_true (denies_error .storage rfl) fun h => ht h.2.1

theorem MenuState.denies_deleteMenuItemImage :
    σ.Denies (σ.deleteMenuItemImage settings user c itemId) ↔
      ¬ ∃ i, σ.ownItem user itemId = some i ∧ c.commits = true := by
  unfold MenuState.deleteMenuItemImage
  cases hown : σ.ownItem user itemId with
  | none => exact iff_of_true (denies_error MenuState.itemMissing rfl) nofun
  | some i =>
    rw [exists_eq_some]
    dsimp only
    by_cases hc : c.commits = true
    · rw [if_pos hc]
      exact iff_of_false (not_denies_ok _) (not_not_intro hc)
    · rw [if_neg hc]
      exact iff_of_true (denies_error .database rfl) hc

end MenuItems

section Requests

/-- What a menu request leaves, as far as rows are concerned. -/
theorem Office.denies_handleMenu (request : MenuRequest) : o.Denies (o.handleMenu lib user draws request) ↔
    (o.menuState draws.nextUuid).Denies
      (MenuCall.handle lib.storage lib.images user (o.menuState draws.nextUuid) ⟨request, draws.conditions⟩) := by
  unfold handleMenu
  generalize MenuCall.handle lib.storage lib.images user (o.menuState draws.nextUuid) ⟨request, draws.conditions⟩ = out
  refine and_congr_right fun _ => ⟨fun h => congrArg Office.items h, fun h => ?_⟩
  have hitems : out.2.items = o.items := h
  change ({ o with items := out.2.items, store := o.store } : Office) = o
  rw [hitems]

theorem Office.ownSettings_iff (h : o.Lawful) {P : SettingsRecord → Prop} :
    (∃ s ∈ o.settings, s.restaurantId = user.restaurantId ∧ P s) ↔ ∃ s, o.ownSettings user = some s ∧ P s := by
  have hown : (∃ s ∈ o.settings, key s = user.restaurantId ∧ s.restaurantId = user.restaurantId ∧ P s) ↔ _ :=
    find_own h.settingsIds
  unfold ownSettings
  simpa using hown

theorem Office.denies_getSettings (h : o.Lawful) :
    o.Denies (o.getSettings user, o) ↔ ¬ ∃ s ∈ o.settings, s.restaurantId = user.restaurantId := by
  have hown : (∃ s ∈ o.settings, s.restaurantId = user.restaurantId ∧ True) ↔ _ := ownSettings_iff h
  simp only [and_true] at hown
  rw [hown]
  unfold getSettings
  cases o.ownSettings user with
  | none => exact iff_of_true (denies_error settingsMissing o.store) nofun
  | some s => exact iff_of_false (not_denies_ok s o) fun hno => hno ⟨s, rfl⟩

theorem Office.denies_updateSettings (h : o.Lawful) (body : UpdateSettingsRequest) :
    o.Denies (o.updateSettings user draws body) ↔ ¬ ∃ s ∈ o.settings, s.restaurantId = user.restaurantId ∧
      body.Writable ∧ draws.conditions.commits = true := by
  rw [ownSettings_iff h]
  unfold updateSettings
  cases hown : o.ownSettings user with
  | none => exact iff_of_true (denies_error settingsMissing o.store) nofun
  | some s =>
    rw [exists_eq_some, ← UpdateSettingsRequest.apply_fits (h.settings s (ownSettings_some hown).1)]
    dsimp only
    cases happly : body.apply s with
    | none => exact iff_of_true (denies_error .database o.store) nofun
    | some row =>
      rw [exists_eq_some]
      dsimp only
      rw [denies_if o.store, Bool.and_eq_true]

theorem Office.denies_resetStaffPin (body : ResetPinRequest) : o.Denies (o.resetStaffPin lib user draws body) ↔
    ¬ ((o.activeStaff user).length = 1 ∧ draws.conditions.commits = true) := by
  unfold resetStaffPin
  rcases hstaff : o.activeStaff user with - | ⟨staff, - | ⟨other, rest⟩⟩
  · exact iff_of_true (denies_error (.http 404 "No active staff user found for this restaurant") o.store) nofun
  · dsimp only
    rw [denies_if o.store]
    exact not_congr (and_iff_right rfl).symm
  · exact iff_of_true (denies_error .multipleResultsFound o.store) (by simp)

/-- The rows that a request needs are there, and nothing stands in its way. -/
def AdminRequest.Serves (lib : AdminLibrary) (user : TokenPayload) (draws : Draws) (o : Office) : AdminRequest → Prop
  | createTable body => o.tableConflict (Office.newTable user draws body) = false ∧
    draws.conditions.put (qrKey draws.nextUuid) = .stored ∧ draws.conditions.commits = true
  | updateTable tableId body => ∃ t ∈ o.tables, t.id = tableId ∧ t.restaurantId = user.restaurantId ∧
    body.Writable o t ∧ draws.conditions.commits = true
  | regenerateQr tableId => ∃ t ∈ o.tables, t.id = tableId ∧ t.restaurantId = user.restaurantId ∧
    o.tableConflict { t with qrToken := draws.qrToken } = false ∧ draws.conditions.put (qrKey t.id) = .stored ∧
      draws.conditions.commits = true
  | getQrImage tableId => ∃ t ∈ o.tables, t.id = tableId ∧ t.restaurantId = user.restaurantId
  | createMenuCategory body => body.sortOrder ≤ int4Max ∧ draws.conditions.commits = true
  | updateMenuCategory categoryId body => ∃ g ∈ o.categories, g.id = categoryId ∧
    g.restaurantId = user.restaurantId ∧ body.Writable ∧ draws.conditions.commits = true
  | menu (.createMenuItem body) => o.OwnsCategory user body.categoryId ∧
    (toNumeric body.price < numericLimit ∧ body.prepTimeMinutes ≤ int4Max ∧ body.sortOrder ≤ int4Max) ∧
      draws.conditions.commits = true
  | menu (.updateMenuItem itemId body) => ∃ i ∈ o.items, i.id = itemId ∧ i.restaurantId = user.restaurantId ∧
    o.OwnsCategory user (body.categoryId.getD none) ∧ body.Writable ∧ draws.conditions.commits = true
  | menu (.uploadMenuItemImage itemId file) => ∃ i ∈ o.items, i.id = itemId ∧ i.restaurantId = user.restaurantId ∧
    (∃ variants, checkImage lib.images file = .ok variants) ∧
      draws.conditions.put (thumbKey i.id draws.conditions.now) = .stored ∧
        draws.conditions.put (largeKey i.id draws.conditions.now) = .stored ∧ draws.conditions.commits = true
  | menu (.deleteMenuItemImage itemId) => ∃ i ∈ o.items, i.id = itemId ∧ i.restaurantId = user.restaurantId ∧
    draws.conditions.commits = true
  | getSettings => ∃ s ∈ o.settings, s.restaurantId = user.restaurantId
  | updateSettings body => ∃ s ∈ o.settings, s.restaurantId = user.restaurantId ∧ body.Writable ∧
    draws.conditions.commits = true
  | resetStaffPin _ => (o.activeStaff user).length = 1 ∧ draws.conditions.commits = true
  | listTables | listMenuCategories | listMenuItems | getPrepTimePresets => True

theorem AdminRequest.denies (h : o.Lawful) (hr : ∃ r ∈ o.restaurants, r.id = user.restaurantId) (r : AdminRequest) :
    o.Denies (r.handle lib user draws o) ↔ ¬ r.Serves lib user draws o := by
  have hlist (a : AdminResponse) : o.Denies (.ok a, o) ↔ ¬ True :=
    iff_of_false (Office.not_denies_ok a o) (not_not_intro trivial)
  cases r with
  | createTable body => exact Office.denies_map.trans (Office.denies_createTable hr body)
  | updateTable tableId body => exact Office.denies_map.trans (Office.denies_updateTable h tableId body)
  | regenerateQr tableId => exact Office.denies_map.trans (Office.denies_regenerateQr h hr tableId)
  | getQrImage tableId => exact Office.denies_map.trans (Office.denies_getQrImage h hr tableId)
  | createMenuCategory body => exact Office.denies_map.trans (Office.denies_createMenuCategory body)
  | updateMenuCategory categoryId body =>
    exact Office.denies_map.trans (Office.denies_updateMenuCategory h categoryId body)
  | menu request =>
    refine Office.denies_map.trans ((Office.denies_handleMenu request).trans ?_)
    cases request with
    | createMenuItem body =>
      refine (MenuState.denies_createMenuItem body).trans (not_congr ?_)
      rw [Office.ownsCategory_iff]
      rfl
    | updateMenuItem itemId body =>
      refine (MenuState.denies_updateMenuItem h.items body).trans (not_congr ?_)
      rw [Office.ownsCategory_iff, ← Office.ownItem_iff h]
      rfl
    | uploadMenuItemImage itemId file =>
      refine (MenuState.denies_uploadMenuItemImage file).trans (not_congr ?_)
      rw [← Office.ownItem_iff h]
      rfl
    | deleteMenuItemImage itemId =>
      refine MenuState.denies_deleteMenuItemImage.trans (not_congr ?_)
      rw [← Office.ownItem_iff h]
      rfl
  | getSettings =>
    exact Office.denies_map.trans (Office.denies_getSettings h)
  | updateSettings body => exact Office.denies_map.trans (Office.denies_updateSettings h body)
  | resetStaffPin body => exact Office.denies_map.trans (Office.denies_resetStaffPin body)
  | listTables | listMenuCategories | listMenuItems | getPrepTimePresets => exact hlist _

end Requests

end QOrder
