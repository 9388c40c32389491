import QOrder.BodyAnswers
import QOrder.OfficeTwins

/-! A request of an administrator in two offices that have the same rows of the restaurant. The
answers are the same, and so are the rows of the restaurant afterwards. -/

namespace QOrder

open KeyedTable

namespace Office.Alike

variable {lib : AdminLibrary} {user : TokenPayload} {draws : Draws} {o o' : Office}
  (h : Office.Alike user draws o o')

include h

section Menu

theorem ownCategory (categoryId : Uuid) : o'.ownCategory user categoryId = o.ownCategory user categoryId := by
  refine find_agree h.categories fun g hg => ?_
  simp only [Bool.and_eq_true, beq_iff_eq] at hg
  exact hg.2

theorem saveCategory {row : CategoryRecord} (hr : row.restaurantId = user.restaurantId)
    (hold : ∀ g ∈ o.categories, key g = key row → g.restaurantId = user.restaurantId)
    (hold' : ∀ g ∈ o'.categories, key g = key row → g.restaurantId = user.restaurantId) :
    SameFor user.restaurantId (o.saveCategory draws row) (o'.saveCategory draws row) := by
  unfold Office.saveCategory
  by_cases hsave : (row.fits && draws.conditions.commits) = true
  · rw [if_pos hsave, if_pos hsave]
    have hrows := overlay_agree h.categories h.lawful.categoryIds h.lawful'.categoryIds hr hold hold'
    exact ⟨rfl, congrArg₂ (fun (s : Office) categories => { s with categories }) h.rows hrows⟩
  · rw [if_neg hsave, if_neg hsave]
    exact h.unchanged _

theorem createMenuCategory (body : MenuCategoryCreate) : SameFor user.restaurantId
    (o.createMenuCategory user draws body) (o'.createMenuCategory user draws body) :=
  h.saveCategory rfl (keyed_new h.fresh.category rfl) (keyed_new h.fresh'.category rfl)

theorem updateMenuCategory (categoryId : Uuid) (body : MenuCategoryUpdate) : SameFor user.restaurantId
    (o.updateMenuCategory user draws categoryId body) (o'.updateMenuCategory user draws categoryId body) := by
  unfold Office.updateMenuCategory
  rw [h.ownCategory]
  cases hown : o.ownCategory user categoryId with
  | none => exact h.unchanged _
  | some g =>
    obtain ⟨hg, -, hr⟩ := Office.ownCategory_some hown
    obtain ⟨hg', -, -⟩ := Office.ownCategory_some ((h.ownCategory categoryId).trans hown)
    dsimp only
    cases hrow : body.apply g with
    | none => exact h.unchanged _
    | some row =>
      obtain ⟨hid, hr'⟩ := MenuCategoryUpdate.apply_keeps hrow
      exact h.saveCategory (hr'.trans hr) (keyed_own h.lawful.categoryIds hg hid.symm hr)
        (keyed_own h.lawful'.categoryIds hg' hid.symm hr)

theorem listMenuCategories : o'.listMenuCategories lib user = o.listMenuCategories lib user := by
  unfold Office.listMenuCategories
  rw [h.categories]

theorem listMenuItems : o'.listMenuItems lib user = o.listMenuItems lib user := by
  unfold Office.listMenuItems
  rw [h.items]

end Menu

section MenuItems

variable {row item : MenuItemRow}

theorem saveItem (answer : Except MenuError MenuItemRow) (hr : row.restaurantId = user.restaurantId)
    (hold : ∀ i ∈ o.items, key i = key row → i.restaurantId = user.restaurantId)
    (hold' : ∀ i ∈ o'.items, key i = key row → i.restaurantId = user.restaurantId) (s s' : ObjectStore) :
    SameFor user.restaurantId (answer, { o with items := overlay o.items [row], store := s })
      (answer, { o' with items := overlay o'.items [row], store := s' }) := by
  have hrows := overlay_agree h.items h.lawful.itemIds h.lawful'.itemIds hr hold hold'
  exact ⟨rfl, congrArg₂ (fun (s : Office) items => { s with items }) h.rows hrows⟩

/-- A row is committed if it fits, in both. -/
theorem trySave (hr : row.restaurantId = user.restaurantId)
    (hold : ∀ i ∈ o.items, key i = key row → i.restaurantId = user.restaurantId)
    (hold' : ∀ i ∈ o'.items, key i = key row → i.restaurantId = user.restaurantId) (k : Uuid) :
    SameFor user.restaurantId (((o.menuState k).save draws.conditions row).map id o.withMenu)
      (((o'.menuState k).save draws.conditions row).map id o'.withMenu) := by
  unfold MenuState.save
  by_cases hsave : (row.fits && draws.conditions.commits) = true
  · rw [if_pos hsave, if_pos hsave]
    exact h.saveItem (.ok row) hr hold hold' o.store o'.store
  · rw [if_neg hsave, if_neg hsave]
    exact h.unchanged _

theorem ownItem (k itemId : Uuid) : (o'.menuState k).ownItem user itemId = (o.menuState k).ownItem user itemId := by
  refine find_agree h.items fun i hi => ?_
  simp only [Bool.and_eq_true, beq_iff_eq] at hi
  exact hi.2

/-- A menu item of the restaurant is one of both. -/
theorem ownItem_keyed (row : MenuItemRow) {k itemId : Uuid} (hown : (o.menuState k).ownItem user itemId = some item)
    (hid : row.id = item.id) (hrow : row.restaurantId = item.restaurantId) :
    row.restaurantId = user.restaurantId ∧
      (∀ i ∈ o.items, key i = key row → i.restaurantId = user.restaurantId) ∧
        ∀ i ∈ o'.items, key i = key row → i.restaurantId = user.restaurantId := by
  obtain ⟨hi, hr⟩ := ownItem_some hown
  obtain ⟨hi', -⟩ := ownItem_some ((h.ownItem k itemId).trans hown)
  exact ⟨hrow.trans hr, keyed_own h.lawful.itemIds hi hid.symm hr, keyed_own h.lawful'.itemIds hi' hid.symm hr⟩

theorem ownsCategory (k : Uuid) (categoryId : Option Uuid) :
    (o'.menuState k).ownsCategory user categoryId = (o.menuState k).ownsCategory user categoryId := by
  rw [Bool.eq_iff_iff, Office.ownsCategory_iff, Office.ownsCategory_iff]
  refine forall_congr' fun k => imp_congr_right fun _ => exists_congr fun g => ?_
  constructor
  · rintro ⟨hg, hid, hr⟩
    exact ⟨mem_agree h.categories.symm hg hr, hid, hr⟩
  · rintro ⟨hg, hid, hr⟩
    exact ⟨mem_agree h.categories hg hr, hid, hr⟩

theorem uploadMenuItemImage (itemId : Uuid) (file : UploadFile) :
    SameFor user.restaurantId (o.handleMenu lib user draws (.uploadMenuItemImage itemId file))
      (o'.handleMenu lib user draws (.uploadMenuItemImage itemId file)) := by
  simp only [handleMenu, MenuCall.handle, MenuState.uploadMenuItemImage]
  rw [h.ownItem]
  cases hown : (o.menuState draws.nextUuid).ownItem user itemId with
  | none => exact h.unchanged _
  | some item =>
    dsimp only
    cases checkImage lib.images file with
    | error e => exact h.unchanged _
    | ok variants =>
      obtain ⟨thumb, large⟩ := variants
      simp only [ObjectStore.uploadFile_url]
      by_cases ht : draws.conditions.put (thumbKey item.id draws.conditions.now) = .stored
      · by_cases hl : draws.conditions.put (largeKey item.id draws.conditions.now) = .stored
        · by_cases hsave : draws.conditions.commits = true
          · simp only [if_pos ht, if_pos hl, if_pos hsave]
            let row : MenuItemRow := { item with
              imageUrl := some (getPublicUrl lib.storage (thumbKey item.id draws.conditions.now))
              imageLargeUrl := some (getPublicUrl lib.storage (largeKey item.id draws.conditions.now)) }
            obtain ⟨hr, hold, hold'⟩ := h.ownItem_keyed row hown rfl rfl
            exact h.saveItem (.ok row) hr hold hold' _ _
          · simp only [if_pos ht, if_pos hl, if_neg hsave]
            exact h.refused _ _ _
        · simp only [if_pos ht, if_neg hl]
          exact h.refused _ _ _
      · simp only [if_neg ht]
        exact h.refused _ _ _

theorem handleMenu (request : MenuRequest) : SameFor user.restaurantId
    (o.handleMenu lib user draws request) (o'.handleMenu lib user draws request) := by
  cases request with
  | createMenuItem body =>
    simp only [Office.handleMenu, MenuCall.handle, MenuState.createMenuItem]
    rw [h.ownsCategory]
    by_cases hc : (o.menuState draws.nextUuid).ownsCategory user body.categoryId = true
    · rw [if_pos hc, if_pos hc]
      exact h.trySave rfl (keyed_new h.fresh.item rfl) (keyed_new h.fresh'.item rfl) (draws.nextUuid + 1)
    · rw [if_neg hc, if_neg hc]
      exact h.unchanged _
  | updateMenuItem itemId body =>
    simp only [Office.handleMenu, MenuCall.handle, MenuState.updateMenuItem]
    rw [h.ownItem, h.ownsCategory]
    cases hown : (o.menuState draws.nextUuid).ownItem user itemId with
    | none => exact h.unchanged _
    | some item =>
      dsimp only
      by_cases hc : (o.menuState draws.nextUuid).ownsCategory user (body.categoryId.getD none) = true
      · rw [if_pos hc, if_pos hc]
        cases hrow : body.apply item with
        | none => exact h.unchanged _
        | some row =>
          obtain ⟨hid, hr'⟩ := MenuItemUpdate.apply_keeps hrow
          obtain ⟨hr, hold, hold'⟩ := h.ownItem_keyed row hown hid hr'
          exact h.trySave hr hold hold' draws.nextUuid
      · rw [if_neg hc, if_neg hc]
        exact h.unchanged _
  | uploadMenuItemImage itemId file => exact h.uploadMenuItemImage itemId file
  | deleteMenuItemImage itemId =>
    simp only [Office.handleMenu, MenuCall.handle, MenuState.deleteMenuItemImage]
    rw [h.ownItem]
    cases hown : (o.menuState draws.nextUuid).ownItem user itemId with
    | none => exact h.unchanged _
    | some item =>
      dsimp only
      by_cases hsave : draws.conditions.commits = true
      · rw [if_pos hsave, if_pos hsave]
        let row : MenuItemRow := { item with imageUrl := none, imageLargeUrl := none }
        obtain ⟨hr, hold, hold'⟩ := h.ownItem_keyed row hown rfl rfl
        exact h.saveItem (.ok row) hr hold hold' _ _
      · rw [if_neg hsave, if_neg hsave]
        exact h.unchanged _

end MenuItems

section Settings

theorem ownSettings : o'.ownSettings user = o.ownSettings user :=
  find_agree h.settings fun _ hs => beq_iff_eq.mp hs

theorem getSettings : o'.getSettings user = o.getSettings user := by
  unfold Office.getSettings
  rw [h.ownSettings]

theorem getPrepTimePresets : o'.getPrepTimePresets user = o.getPrepTimePresets user := by
  unfold Office.getPrepTimePresets
  rw [h.ownSettings]

theorem updateSettings (body : UpdateSettingsRequest) :
    SameFor user.restaurantId (o.updateSettings user draws body) (o'.updateSettings user draws body) := by
  unfold Office.updateSettings
  rw [h.ownSettings]
  cases hown : o.ownSettings user with
  | none => exact h.unchanged _
  | some s =>
    have hr := (Office.ownSettings_some hown).2
    dsimp only
    cases hrow : body.apply s with
    | none => exact h.unchanged _
    | some row =>
      have hr' : row.restaurantId = user.restaurantId := (UpdateSettingsRequest.apply_keeps hrow).trans hr
      dsimp only
      by_cases hsave : (row.fits && draws.conditions.commits) = true
      · rw [if_pos hsave, if_pos hsave]
        have hrows := overlay_agree h.settings h.lawful.settingsIds h.lawful'.settingsIds hr'
          (fun _ _ hk => Eq.trans hk hr') fun _ _ hk => Eq.trans hk hr'
        exact ⟨rfl, congrArg₂ (fun (s : Office) settings => { s with settings }) h.rows hrows⟩
      · rw [if_neg hsave, if_neg hsave]
        exact h.unchanged _

theorem activeStaff : o'.activeStaff user = o.activeStaff user := by
  have hfilter := filter_agree h.users fun u => u.role == .staff && u.isActive
  simpa only [Office.activeStaff, Bool.and_assoc] using hfilter

theorem resetStaffPin (body : ResetPinRequest) :
    SameFor user.restaurantId (o.resetStaffPin lib user draws body) (o'.resetStaffPin lib user draws body) := by
  unfold Office.resetStaffPin
  have hstaff := h.activeStaff
  rw [hstaff]
  rcases hactive : o.activeStaff user with - | ⟨staff, - | ⟨other, rest⟩⟩
  · exact h.unchanged _
  · have own {o : Office} (hs : o.activeStaff user = [staff]) : staff ∈ o.users ∧ staff.restaurantId = user.restaurantId := by
      have hm : staff ∈ o.activeStaff user := hs ▸ List.mem_singleton_self staff
      obtain ⟨hu, hp⟩ := List.mem_filter.mp hm
      simp only [Bool.and_eq_true, beq_iff_eq] at hp
      exact ⟨hu, hp.1.1⟩
    obtain ⟨hu, hr⟩ := own hactive
    obtain ⟨hu', -⟩ := own (hstaff.trans hactive)
    dsimp only
    by_cases hsave : draws.conditions.commits = true
    · rw [if_pos hsave, if_pos hsave]
      let row : UserRecord := { staff with pinHash := some (lib.hashPin body.newPin) }
      have hr' : row.restaurantId = user.restaurantId := hr
      have hrows := overlay_agree h.users h.lawful.userIds h.lawful'.userIds hr'
        (keyed_own h.lawful.userIds hu rfl hr) (keyed_own h.lawful'.userIds hu' rfl hr)
      exact ⟨rfl, congrArg₂ (fun (s : Office) users => { s with users }) h.rows hrows⟩
    · rw [if_neg hsave, if_neg hsave]
      exact h.unchanged _
  · exact h.unchanged _

end Settings

/-- What one request does in the two. -/
theorem handle (r : AdminRequest) :
    SameFor user.restaurantId (r.handle lib user draws o) (r.handle lib user draws o') := by
  cases r with
  | createTable body => exact (h.createTable body).map AdminResponse.table
  | listTables =>
    simp only [AdminRequest.handle, h.listTables]
    exact h.unchanged _
  | updateTable tableId body => exact (h.updateTable tableId body).map AdminResponse.table
  | regenerateQr tableId => exact (h.regenerateQr tableId).map AdminResponse.table
  | getQrImage tableId =>
    simp only [AdminRequest.handle, h.getQrImage]
    exact h.unchanged _
  | createMenuCategory body => exact (h.createMenuCategory body).map AdminResponse.category
  | listMenuCategories =>
    simp only [AdminRequest.handle, h.listMenuCategories]
    exact h.unchanged _
  | updateMenuCategory categoryId body => exact (h.updateMenuCategory categoryId body).map AdminResponse.category
  | menu request => exact (h.handleMenu request).map AdminResponse.item
  | listMenuItems =>
    simp only [AdminRequest.handle, h.listMenuItems]
    exact h.unchanged _
  | getPrepTimePresets =>
    simp only [AdminRequest.handle, h.getPrepTimePresets]
    exact h.unchanged _
  | getSettings =>
    simp only [AdminRequest.handle, h.getSettings]
    exact h.unchanged _
  | updateSettings body => exact (h.updateSettings body).map AdminResponse.settings
  | resetStaffPin body => exact (h.resetStaffPin body).map AdminResponse.message

end Office.Alike

end QOrder
