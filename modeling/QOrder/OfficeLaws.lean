import QOrder.Office

/-! What one request of an administrator writes: at most one row, of the restaurant of its
token. The keys and the ranges of the columns are kept from there. -/

namespace QOrder

open KeyedTable

/-- A request has left the second office, and issued tokens for tables. -/
inductive Office.Wrote (user : TokenPayload) (draws : Draws) (o : Office) :
    List (Uuid × String) → Office → Prop
  | nothing (store : ObjectStore) : Wrote user draws o [] { o with store }
  | tableAdded (row : TableRecord) (store : ObjectStore) (hr : row.restaurantId = user.restaurantId)
      (hid : row.id = draws.nextUuid) (hq : row.qrToken = draws.qrToken)
      (hc : o.tableConflict row = false) :
      Wrote user draws o [(row.id, row.qrToken)] { o with tables := overlay o.tables [row], store }
  | tableEdited (t row : TableRecord) (ht : t ∈ o.tables) (hr : t.restaurantId = user.restaurantId)
      (hid : row.id = t.id) (hr' : row.restaurantId = t.restaurantId) (hq : row.qrToken = t.qrToken)
      (hc : o.tableConflict row = false) :
      Wrote user draws o [] { o with tables := overlay o.tables [row] }
  | tableRenewed (t : TableRecord) (imageUrl : Option String) (store : ObjectStore) (ht : t ∈ o.tables)
      (hr : t.restaurantId = user.restaurantId)
      (hc : o.tableConflict { t with qrToken := draws.qrToken, qrImageUrl := imageUrl } = false) :
      Wrote user draws o [(t.id, draws.qrToken)]
        { o with
          tables := overlay o.tables [{ t with qrToken := draws.qrToken, qrImageUrl := imageUrl }], store }
  | category (row : CategoryRecord) (hr : row.restaurantId = user.restaurantId) (hf : row.fits = true)
      (hid : row.id = draws.nextUuid ∨ ∃ g ∈ o.categories, g.id = row.id ∧ g.restaurantId = user.restaurantId) :
      Wrote user draws o [] { o with categories := overlay o.categories [row] }
  | item (row : MenuItemRow) (store : ObjectStore) (hr : row.restaurantId = user.restaurantId)
      (hf : (∀ i ∈ o.items, i.fits = true) → row.fits = true)
      (hid : row.id = draws.nextUuid ∨ ∃ i ∈ o.items, i.id = row.id ∧ i.restaurantId = user.restaurantId) :
      Wrote user draws o [] { o with items := overlay o.items [row], store }
  | settings (row : SettingsRecord) (hr : row.restaurantId = user.restaurantId) (hf : row.fits = true)
      (hid : ∃ s ∈ o.settings, s.restaurantId = row.restaurantId) :
      Wrote user draws o [] { o with settings := overlay o.settings [row] }
  | staff (row : UserRecord) (hr : row.restaurantId = user.restaurantId)
      (hid : ∃ u ∈ o.users, u.id = row.id ∧ u.restaurantId = user.restaurantId) :
      Wrote user draws o [] { o with users := overlay o.users [row] }

/-- The tokens that a request has issued for tables, by its answer. -/
def AdminRequest.issues (r : AdminRequest) (answer : Except MenuError AdminResponse) : List (Uuid × String) :=
  match r, answer with
  | .createTable _, .ok (.table row) | .regenerateQr _, .ok (.table row) => [(row.id, row.qrToken)]
  | _, _ => []

section Handlers

variable {lib : AdminLibrary} {user : TokenPayload} {draws : Draws} {o : Office}

theorem Office.ownTable_some {tableId : Uuid} {t : TableRecord} (h : o.ownTable user tableId = some t) :
    t ∈ o.tables ∧ t.id = tableId ∧ t.restaurantId = user.restaurantId := by
  have hp := List.find?_some h
  simp only [Bool.and_eq_true, beq_iff_eq] at hp
  exact ⟨List.mem_of_find?_eq_some h, hp.1, hp.2⟩

theorem Office.ownCategory_some {categoryId : Uuid} {g : CategoryRecord}
    (h : o.ownCategory user categoryId = some g) :
    g ∈ o.categories ∧ g.id = categoryId ∧ g.restaurantId = user.restaurantId := by
  have hp := List.find?_some h
  simp only [Bool.and_eq_true, beq_iff_eq] at hp
  exact ⟨List.mem_of_find?_eq_some h, hp.1, hp.2⟩

theorem Office.ownSettings_some {s : SettingsRecord} (h : o.ownSettings user = some s) :
    s ∈ o.settings ∧ s.restaurantId = user.restaurantId :=
  ⟨List.mem_of_find?_eq_some h, by simpa using List.find?_some h⟩

theorem TableUpdate.apply_keeps {u : TableUpdate} {t row : TableRecord} (h : u.apply t = some row) :
    row.id = t.id ∧ row.restaurantId = t.restaurantId ∧ row.qrToken = t.qrToken := by
  simp only [TableUpdate.apply, Option.bind_eq_bind, Option.bind_eq_some_iff, Option.pure_def,
    Option.some.injEq] at h
  obtain ⟨-, -, -, -, rfl⟩ := h
  exact ⟨rfl, rfl, rfl⟩

theorem MenuCategoryUpdate.apply_keeps {u : MenuCategoryUpdate} {g row : CategoryRecord}
    (h : u.apply g = some row) : row.id = g.id ∧ row.restaurantId = g.restaurantId := by
  simp only [MenuCategoryUpdate.apply, Option.bind_eq_bind, Option.bind_eq_some_iff, Option.pure_def,
    Option.some.injEq] at h
  obtain ⟨-, -, -, -, -, -, rfl⟩ := h
  exact ⟨rfl, rfl⟩

theorem UpdateSettingsRequest.apply_keeps {u : UpdateSettingsRequest} {s row : SettingsRecord}
    (h : u.apply s = some row) : row.restaurantId = s.restaurantId := by
  simp only [UpdateSettingsRequest.apply, Option.bind_eq_bind, Option.bind_eq_some_iff, Option.pure_def,
    Option.some.injEq] at h
  obtain ⟨-, -, -, -, -, -, -, -, -, -, -, -, -, -, -, -, rfl⟩ := h
  rfl

/-- A row of `tables` is committed, or nothing. -/
theorem Office.saveTable_cases (o : Office) (draws : Draws) (row : TableRecord) :
    o.saveTable draws row = (.error .database, o) ∨
      o.tableConflict row = false ∧
        o.saveTable draws row = (.ok row, { o with tables := overlay o.tables [row] }) := by
  unfold saveTable
  split
  next h =>
    simp only [Bool.and_eq_true, Bool.not_eq_true'] at h
    exact .inr ⟨h.1, rfl⟩
  next => exact .inl rfl

theorem Office.saveWithQr_cases (o : Office) (lib : AdminLibrary) (draws : Draws) (slug : String) (row : TableRecord) :
    (∃ e store, o.saveWithQr lib draws slug row = (.error e, { o with store })) ∨
      ∃ imageUrl store, o.tableConflict { row with qrImageUrl := imageUrl } = false ∧
        o.saveWithQr lib draws slug row = (.ok { row with qrImageUrl := imageUrl },
          { o with tables := overlay o.tables [{ row with qrImageUrl := imageUrl }], store }) := by
  unfold saveWithQr
  generalize uploadFile lib.storage draws.conditions o.store (qrKey row.id)
    (lib.makeQr (buildQrUrl lib slug row.qrToken)) = out
  obtain ⟨imageUrl, store⟩ := out
  cases imageUrl with
  | none => exact .inl ⟨.storage, store, rfl⟩
  | some imageUrl =>
    dsimp only
    rcases saveTable_cases { o with store } draws { row with qrImageUrl := some imageUrl } with h | ⟨hc, h⟩
    · exact .inl ⟨.database, store, h⟩
    · exact .inr ⟨some imageUrl, store, hc, h⟩

theorem Office.createTable_wrote (body : TableCreate) :
    Office.Wrote user draws o ((AdminRequest.createTable body).issues
      ((AdminRequest.createTable body).handle lib user draws o).1)
      ((AdminRequest.createTable body).handle lib user draws o).2 := by
  simp only [AdminRequest.handle, createTable]
  split
  next => exact .nothing o.store
  next slug _ =>
    split
    next => exact .nothing o.store
    next =>
      rcases o.saveWithQr_cases lib draws slug
        { id := draws.nextUuid, restaurantId := user.restaurantId, qrToken := draws.qrToken
          tableNumber := body.tableNumber } with ⟨e, store, h⟩ | ⟨imageUrl, store, hc, h⟩
      · rw [h]
        exact .nothing store
      · rw [h]
        exact .tableAdded _ store rfl rfl rfl hc

theorem Office.updateTable_wrote (tableId : Uuid) (body : TableUpdate) :
    Office.Wrote user draws o [] (o.updateTable user draws tableId body).2 := by
  unfold updateTable
  split
  next => exact .nothing o.store
  next t ht =>
    obtain ⟨hm, -, hr⟩ := ownTable_some ht
    split
    next => exact .nothing o.store
    next row hrow =>
      obtain ⟨hid, hr', hq⟩ := TableUpdate.apply_keeps hrow
      rcases o.saveTable_cases draws row with h | ⟨hc, h⟩
      · rw [h]
        exact .nothing o.store
      · rw [h]
        exact .tableEdited t row hm hr hid hr' hq hc

theorem Office.regenerateQr_wrote (tableId : Uuid) :
    Office.Wrote user draws o ((AdminRequest.regenerateQr tableId).issues
      ((AdminRequest.regenerateQr tableId).handle lib user draws o).1)
      ((AdminRequest.regenerateQr tableId).handle lib user draws o).2 := by
  simp only [AdminRequest.handle, regenerateQr]
  split
  next => exact .nothing o.store
  next t ht =>
    obtain ⟨hm, -, hr⟩ := ownTable_some ht
    split
    next => exact .nothing o.store
    next slug _ =>
      rcases o.saveWithQr_cases lib draws slug
        { t with qrToken := draws.qrToken } with ⟨e, store, h⟩ | ⟨imageUrl, store, hc, h⟩
      · rw [h]
        exact .nothing store
      · rw [h]
        exact .tableRenewed t imageUrl store hm hr hc

theorem Office.saveCategory_wrote {row : CategoryRecord} (hr : row.restaurantId = user.restaurantId)
    (hid : row.id = draws.nextUuid ∨ ∃ g ∈ o.categories, g.id = row.id ∧ g.restaurantId = user.restaurantId) :
    Office.Wrote user draws o [] (o.saveCategory draws row).2 := by
  unfold saveCategory
  split
  next h =>
    simp only [Bool.and_eq_true] at h
    exact .category row hr h.1 hid
  next => exact .nothing o.store

theorem Office.updateMenuCategory_wrote (categoryId : Uuid) (body : MenuCategoryUpdate) :
    Office.Wrote user draws o [] (o.updateMenuCategory user draws categoryId body).2 := by
  unfold updateMenuCategory
  split
  next => exact .nothing o.store
  next g hg =>
    obtain ⟨hm, -, hr⟩ := ownCategory_some hg
    split
    next => exact .nothing o.store
    next row hrow =>
      obtain ⟨hid, hr'⟩ := MenuCategoryUpdate.apply_keeps hrow
      exact saveCategory_wrote (hr'.trans hr) (.inr ⟨g, hm, hid.symm, hr⟩)

theorem Office.updateSettings_wrote (body : UpdateSettingsRequest) :
    Office.Wrote user draws o [] (o.updateSettings user draws body).2 := by
  unfold updateSettings
  split
  next => exact .nothing o.store
  next s hs =>
    obtain ⟨hm, hr⟩ := ownSettings_some hs
    split
    next => exact .nothing o.store
    next row hrow =>
      have hr' := UpdateSettingsRequest.apply_keeps hrow
      split
      next h =>
        simp only [Bool.and_eq_true] at h
        exact .settings row (hr'.trans hr) h.1 ⟨s, hm, hr'.symm⟩
      next => exact .nothing o.store

theorem Office.resetStaffPin_wrote (body : ResetPinRequest) :
    Office.Wrote user draws o [] (o.resetStaffPin lib user draws body).2 := by
  unfold resetStaffPin
  split
  next => exact .nothing o.store
  next staff hs =>
    have hm : staff ∈ o.activeStaff user := by simp [hs]
    obtain ⟨hu, hp⟩ := List.mem_filter.mp hm
    simp only [Bool.and_eq_true, beq_iff_eq] at hp
    split
    · exact .staff _ hp.1.1 ⟨staff, hu, rfl, hp.1.1⟩
    · exact .nothing o.store
  next => exact .nothing o.store

/-- A menu item is saved, or none. -/
theorem Office.handleMenu_wrote (request : MenuRequest) :
    Office.Wrote user draws o [] (o.handleMenu lib user draws request).2 := by
  cases request with
  | createMenuItem body =>
    simp only [handleMenu, MenuCall.handle, MenuState.createMenuItem]
    split
    · unfold MenuState.save
      split
      next h =>
        simp only [Bool.and_eq_true] at h
        exact .item _ o.store rfl (fun _ => h.1) (.inl rfl)
      next => exact .nothing o.store
    · exact .nothing o.store
  | updateMenuItem itemId body =>
    simp only [handleMenu, MenuCall.handle, MenuState.updateMenuItem]
    split
    next => exact .nothing o.store
    next item hown =>
      obtain ⟨hm, hr⟩ := ownItem_some hown
      split
      · split
        next => exact .nothing o.store
        next row hrow =>
          obtain ⟨hid, hr'⟩ := MenuItemUpdate.apply_keeps hrow
          unfold MenuState.save
          split
          next h =>
            simp only [Bool.and_eq_true] at h
            exact .item row o.store (hr'.trans hr) (fun _ => h.1) (.inr ⟨item, hm, hid.symm, hr⟩)
          next => exact .nothing o.store
      · exact .nothing o.store
  | uploadMenuItemImage itemId file =>
    simp only [handleMenu, MenuCall.handle, MenuState.uploadMenuItemImage]
    split
    next => exact .nothing o.store
    next item hown =>
      obtain ⟨hm, hr⟩ := ownItem_some hown
      split
      next => exact .nothing o.store
      next =>
        split
        · split
          · exact .item _ _ hr (fun h => h item hm) (.inr ⟨item, hm, rfl, hr⟩)
          · exact .nothing _
        · exact .nothing _
  | deleteMenuItemImage itemId =>
    simp only [handleMenu, MenuCall.handle, MenuState.deleteMenuItemImage]
    split
    next => exact .nothing o.store
    next item hown =>
      obtain ⟨hm, hr⟩ := ownItem_some hown
      split
      · exact .item _ _ hr (fun h => h item hm) (.inr ⟨item, hm, rfl, hr⟩)
      · exact .nothing o.store

theorem AdminRequest.wrote (r : AdminRequest) :
    Office.Wrote user draws o (r.issues (r.handle lib user draws o).1) (r.handle lib user draws o).2 := by
  cases r with
  | createTable body => exact Office.createTable_wrote body
  | regenerateQr tableId => exact Office.regenerateQr_wrote tableId
  | updateTable tableId body => exact Office.updateTable_wrote tableId body
  | createMenuCategory body => exact Office.saveCategory_wrote rfl (.inl rfl)
  | updateMenuCategory categoryId body => exact Office.updateMenuCategory_wrote categoryId body
  | menu request => exact Office.handleMenu_wrote request
  | updateSettings body => exact Office.updateSettings_wrote body
  | resetStaffPin body => exact Office.resetStaffPin_wrote body
  | listTables | getQrImage | listMenuCategories | listMenuItems | getPrepTimePresets | getSettings =>
    exact .nothing o.store

end Handlers

section Laws

variable {user : TokenPayload} {draws : Draws} {o o' : Office} {l : List (Uuid × String)}

/-- Primary keys, unique constraints and the ranges of the columns. -/
structure Office.Lawful (o : Office) : Prop where
  restaurantIds : UniqueKeys o.restaurants
  settingsIds : UniqueKeys o.settings
  tableIds : UniqueKeys o.tables
  categoryIds : UniqueKeys o.categories
  itemIds : UniqueKeys o.items
  userIds : UniqueKeys o.users
  slugs : ∀ r ∈ o.restaurants, ∀ r' ∈ o.restaurants, r.slug = r'.slug → r = r'
  tables : ∀ t ∈ o.tables, o.tableConflict t = false
  categories : ∀ g ∈ o.categories, g.fits = true
  items : ∀ i ∈ o.items, i.fits = true
  settings : ∀ s ∈ o.settings, s.fits = true

/-- The generated id is the id of no row, and the token is none of a table. -/
structure Office.Fresh (o : Office) (draws : Draws) : Prop where
  table : lookup draws.nextUuid o.tables = none
  category : lookup draws.nextUuid o.categories = none
  item : lookup draws.nextUuid o.items = none
  token : ∀ t ∈ o.tables, t.qrToken ≠ draws.qrToken

theorem Office.tableConflict_eq_false {row : TableRecord} : o.tableConflict row = false ↔
    ∀ t ∈ o.tables, t.id ≠ row.id → t.qrToken ≠ row.qrToken ∧
      ¬ (t.restaurantId = row.restaurantId ∧ t.tableNumber = row.tableNumber) := by
  rw [tableConflict, List.any_eq_false]
  refine forall_congr' fun t => forall_congr' fun _ => ?_
  simp only [Bool.and_eq_true, bne_iff_ne, ne_eq, Bool.or_eq_true, beq_iff_eq, not_and, not_or]

theorem Office.Lawful.dishIds (h : o.Lawful) : (o.catalog.menuItems.map MenuItem.id).Nodup := by
  have hids : o.catalog.menuItems.map MenuItem.id = o.items.map key := by
    rw [Office.catalog, List.map_map]
    rfl
  rw [hids]
  exact h.itemIds

theorem Office.Lawful.saveTable (h : o.Lawful) {row : TableRecord} (hc : o.tableConflict row = false)
    (store : ObjectStore) : ({ o with tables := overlay o.tables [row], store } : Office).Lawful := by
  have hfree := tableConflict_eq_false.mp hc
  refine { h with tableIds := uniqueKeys_overlay h.tableIds (uniqueKeys_singleton row), tables := ?_ }
  intro t ht
  rw [tableConflict_eq_false]
  intro t' ht' hne
  rcases (mem_overlay_one h.tableIds).mp ht with rfl | ⟨hm, hid⟩
  · rcases (mem_overlay_one h.tableIds).mp ht' with rfl | ⟨hm', -⟩
    · exact absurd rfl hne
    · exact hfree t' hm' hne
  · rcases (mem_overlay_one h.tableIds).mp ht' with rfl | ⟨hm', -⟩
    · have hrow := hfree t hm hid
      exact ⟨hrow.1.symm, fun he => hrow.2 ⟨he.1.symm, he.2.symm⟩⟩
    · exact tableConflict_eq_false.mp (h.tables t hm) t' hm' hne

theorem forall_overlay_one {V : Type} [Keyed V Uuid] {rows : List V} {row : V} {P : V → Prop}
    (h : ∀ x ∈ rows, P x) (hrow : P row) : ∀ x ∈ overlay rows [row], P x := by
  intro x hx
  rcases mem_of_mem_overlay hx with hx | hx
  · rw [List.mem_singleton.mp hx]
    exact hrow
  · exact h x hx

theorem Office.Wrote.lawful (hw : Office.Wrote user draws o l o') (h : o.Lawful) : o'.Lawful := by
  cases hw with
  | nothing store => exact { h with }
  | tableAdded row store hr hid hq hc => exact h.saveTable hc store
  | tableEdited t row ht hr hid hr' hq hc => exact h.saveTable hc o.store
  | tableRenewed t imageUrl store ht hr hc => exact h.saveTable hc store
  | category row hr hf hid =>
    exact { h with
      categoryIds := uniqueKeys_overlay h.categoryIds (uniqueKeys_singleton row)
      categories := forall_overlay_one h.categories hf }
  | item row store hr hf hid =>
    exact { h with
      itemIds := uniqueKeys_overlay h.itemIds (uniqueKeys_singleton row)
      items := forall_overlay_one h.items (hf h.items) }
  | settings row hr hf hid =>
    exact { h with
      settingsIds := uniqueKeys_overlay h.settingsIds (uniqueKeys_singleton row)
      settings := forall_overlay_one h.settings hf }
  | staff row hr hid =>
    exact { h with userIds := uniqueKeys_overlay h.userIds (uniqueKeys_singleton row) }

end Laws

end QOrder
