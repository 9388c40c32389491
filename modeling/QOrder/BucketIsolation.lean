import Mathlib.Data.List.Induction
import QOrder.AdminMenu
import QOrder.Runs

/-! What the photo requests of one restaurant do to the objects of the others. Uploads only
write keys of the own item; a discard deletes whatever key the stored URL is parsed to. -/

namespace QOrder

open KeyedTable

/-- The key of a table's QR image. -/
def qrKey (tableId : Uuid) : String := "qr/" ++ uuidStr tableId ++ ".png"

def menuPrefix (itemId : Uuid) : String := "menu/" ++ uuidStr itemId ++ "/"

namespace MenuState

/-- The key is one of the restaurant's tables or menu items. -/
def KeyOf (σ : MenuState) (restaurantId : Uuid) (key : String) : Prop :=
  (∃ t ∈ σ.tables, t.restaurantId = restaurantId ∧ key = qrKey t.id) ∨
    ∃ i ∈ σ.items, i.restaurantId = restaurantId ∧ (menuPrefix i.id).toList <+: key.toList

/-- The key belongs to another restaurant than the administrator's. -/
def Foreign (σ : MenuState) (user : TokenPayload) (key : String) : Prop :=
  ∃ restaurantId, restaurantId ≠ user.restaurantId ∧ σ.KeyOf restaurantId key

end MenuState

/-- The URLs that a request discards, having done all else. -/
def MenuCall.discards (lib : ImageLibrary) (user : TokenPayload) (σ : MenuState) (call : MenuCall) :
    List (Option String) :=
  match call.request with
  | .uploadMenuItemImage itemId file =>
    match σ.ownItem user itemId, checkImage lib file with
    | some item, .ok _ =>
      if call.conditions.put (thumbKey item.id call.conditions.now) = .stored ∧
          call.conditions.put (largeKey item.id call.conditions.now) = .stored ∧ call.conditions.commits then
        [item.imageUrl, item.imageLargeUrl]
      else []
    | _, _ => []
  | .deleteMenuItemImage itemId =>
    match σ.ownItem user itemId with
    | some item => if call.conditions.commits then [item.imageUrl, item.imageLargeUrl] else []
    | none => []
  | _ => []

/-- A discarded URL is parsed to the key of an object, and the object store deletes it. -/
def MenuCall.Deletes (settings : StorageSettings) (lib : ImageLibrary) (user : TokenPayload)
    (σ : MenuState) (call : MenuCall) (key : String) : Prop :=
  (∃ url, some url ∈ call.discards lib user σ ∧ keyFromPublicUrl settings url = some key) ∧
    (σ.store.objects key).isSome ∧ call.conditions.deletes key = true

section Discard

variable {settings : StorageSettings} {c : Conditions} {store : ObjectStore} {key : String}

theorem keyFromPublicUrl_empty : keyFromPublicUrl settings "" = none := rfl

theorem key_of_filter (url : Option String) :
    (url.filter (· ≠ "")).bind (keyFromPublicUrl settings) = url.bind (keyFromPublicUrl settings) := by
  cases url with
  | none => rfl
  | some url =>
    by_cases hu : url = ""
    · simp [hu, keyFromPublicUrl_empty]
    · simp [Option.filter_some, hu]

theorem deleteFile_objects {k : String} : ((deleteFile c store k).objects key).isSome ↔
    (store.objects key).isSome ∧ (key = k → c.deletes key = false) := by
  unfold deleteFile
  by_cases hk : key = k
  · subst hk
    cases hc : c.deletes key <;> simp [ObjectStore.deleteObject, ObjectStore.replace]
  · cases c.deletes k with
    | true => simp [ObjectStore.deleteObject, ObjectStore.replace_of_ne hk, hk]
    | false => simp [hk]

/-- A discard replaces the objects that its URLs are parsed to. -/
theorem mem_discardImages {urls : List (Option String)} :
    key ∈ (discardImages settings c urls store).replaced ↔ key ∈ store.replaced ∨
      (∃ url, some url ∈ urls ∧ keyFromPublicUrl settings url = some key) ∧
        (store.objects key).isSome ∧ c.deletes key = true := by
  induction urls generalizing store with
  | nil => simp [discardImages]
  | cons url urls ih =>
    have hhead : (∃ u, some u ∈ url :: urls ∧ keyFromPublicUrl settings u = some key) ↔
        url.bind (keyFromPublicUrl settings) = some key ∨
          ∃ u, some u ∈ urls ∧ keyFromPublicUrl settings u = some key := by
      cases url with
      | none => simp
      | some url => simp [or_and_right, exists_or]
    rw [discardImages, ih, hhead, key_of_filter]
    cases hk : url.bind (keyFromPublicUrl settings) with
    | none => simp
    | some k =>
      simp only [ObjectStore.mem_deleteFile, deleteFile_objects, Option.some.injEq]
      by_cases he : k = key
      · subst he
        cases c.deletes k <;> simp
      · simp [he, Ne.symm he]

end Discard

section Keys

variable {σ : MenuState} {user : TokenPayload} {itemId : Uuid} {item row : MenuItemRow}
  {version : Int} {key : String}

theorem slash_not_mem_uuidDigits (k : Uuid) : '/' ∉ uuidDigits k :=
  not_mem_uuidDigits (by decide) (by decide) k

/-- A key that begins with an item's folder begins with no other's. -/
theorem menuPrefix_inj {rest : List Char} {k : Uuid}
    (h : (menuPrefix k).toList <+: "menu/".toList ++ (uuidDigits itemId ++ '/' :: rest)) : k = itemId := by
  obtain ⟨rest', he⟩ := h
  have hmenu : (menuPrefix k).toList = "menu/".toList ++ (uuidDigits k ++ ['/']) := by
    simp [menuPrefix, uuidStr]
  rw [hmenu, List.append_assoc, List.append_assoc] at he
  exact uuidDigits_inj (split_char (slash_not_mem_uuidDigits _) (slash_not_mem_uuidDigits _)
    (List.append_cancel_left he)).1

theorem thumbKey_toList : ∃ rest, (thumbKey itemId version).toList =
    "menu/".toList ++ (uuidDigits itemId ++ '/' :: rest) := by
  refine ⟨"thumb-".toList ++ (toString version).toList ++ ".webp".toList, ?_⟩
  simp [thumbKey, uuidStr]

theorem largeKey_toList : ∃ rest, (largeKey itemId version).toList =
    "menu/".toList ++ (uuidDigits itemId ++ '/' :: rest) := by
  refine ⟨"large-".toList ++ (toString version).toList ++ ".webp".toList, ?_⟩
  simp [largeKey, uuidStr]

/-- A key in the folder of an own item is not foreign. -/
theorem not_foreign (hids : UniqueKeys σ.items) (hi : item ∈ σ.items)
    (hr : item.restaurantId = user.restaurantId)
    (hkey : ∃ rest, key.toList = "menu/".toList ++ (uuidDigits item.id ++ '/' :: rest)) :
    ¬ σ.Foreign user key := by
  obtain ⟨rest, hkey⟩ := hkey
  rintro ⟨restaurantId, hne, ⟨t, -, -, he⟩ | ⟨i, hi', hr', hp⟩⟩
  · rw [he] at hkey
    simp [qrKey] at hkey
  · rw [hkey] at hp
    have hid : i.id = item.id := menuPrefix_inj hp
    rw [eq_of_key_eq hids hi' hi hid] at hr'
    exact hne (hr'.symm.trans hr)

theorem ownItem_some (h : σ.ownItem user itemId = some item) :
    item ∈ σ.items ∧ item.restaurantId = user.restaurantId := by
  have hp := List.find?_some h
  exact ⟨List.mem_of_find?_eq_some h, by simpa using (Bool.and_eq_true_iff.mp hp).2⟩

theorem MenuItemUpdate.apply_keeps {body : MenuItemUpdate} (h : body.apply item = some row) :
    row.id = item.id ∧ row.restaurantId = item.restaurantId := by
  simp only [MenuItemUpdate.apply, Option.bind_eq_bind, Option.bind_eq_some_iff, Option.pure_def,
    Option.some.injEq] at h
  obtain ⟨-, -, -, -, -, -, -, -, -, -, -, -, -, -, rfl⟩ := h
  exact ⟨rfl, rfl⟩

end Keys

section Run

variable {settings : StorageSettings} {lib : ImageLibrary} {user : TokenPayload} {σ₀ σ : MenuState}
  {key : String}

/-- What the administrator's requests leave as it was in `σ₀`. -/
structure MenuState.Kept (σ₀ : MenuState) (user : TokenPayload) (σ : MenuState) : Prop where
  tables : σ.tables = σ₀.tables
  others : ∀ i, i.restaurantId ≠ user.restaurantId → (i ∈ σ.items ↔ i ∈ σ₀.items)
  ids : UniqueKeys σ.items
  below : ∀ i ∈ σ.items, i.id < σ.nextUuid

namespace MenuState.Kept

theorem foreign (h : σ₀.Kept user σ) : σ.Foreign user key ↔ σ₀.Foreign user key := by
  refine exists_congr fun r => and_congr_right fun hr => or_congr ?_ (exists_congr fun i => ?_)
  · rw [h.tables]
  · constructor
    · rintro ⟨hi, rfl, hp⟩
      exact ⟨(h.others i hr).mp hi, rfl, hp⟩
    · rintro ⟨hi, rfl, hp⟩
      exact ⟨(h.others i hr).mpr hi, rfl, hp⟩

/-- A row is saved that is new, or replaces one of the administrator's. -/
theorem saved (h : σ₀.Kept user σ) {row : MenuItemRow} (hr : row.restaurantId = user.restaurantId)
    {σ' : MenuState} (ht : σ'.tables = σ.tables) (hi : σ'.items = overlay σ.items [row])
    (hn : σ.nextUuid ≤ σ'.nextUuid)
    (hrow : σ.nextUuid ≤ row.id ∧ row.id < σ'.nextUuid ∨
      ∃ i ∈ σ.items, i.id = row.id ∧ i.restaurantId = user.restaurantId) : σ₀.Kept user σ' where
  tables := ht.trans h.tables
  others i hne := by
    rw [hi, mem_overlay h.ids (uniqueKeys_singleton row), ← h.others i hne, List.mem_singleton,
      lookup_singleton, key_menuItemRow, key_menuItemRow]
    constructor
    · rintro (rfl | ⟨hm, -⟩)
      · exact absurd hr hne
      · exact hm
    · intro hm
      refine .inr ⟨hm, if_neg fun he => ?_⟩
      rcases hrow with ⟨hle, -⟩ | ⟨i', hm', hid, hr'⟩
      · exact absurd (h.below i hm) (Nat.not_lt.mpr (he ▸ hle))
      · exact hne (eq_of_key_eq h.ids hm hm' (he.symm.trans hid.symm) ▸ hr')
  ids := by
    rw [hi]
    exact uniqueKeys_overlay h.ids (uniqueKeys_singleton row)
  below i hm := by
    rw [hi] at hm
    rcases mem_of_mem_overlay hm with hm | hm
    · rw [List.mem_singleton.mp hm]
      rcases hrow with ⟨-, hlt⟩ | ⟨i', hm', hid, -⟩
      · exact hlt
      · exact hid ▸ (h.below i' hm').trans_le hn
    · exact (h.below i hm).trans_le hn

theorem replaceOwn (h : σ₀.Kept user σ) {itemId : Uuid} {item row : MenuItemRow} {σ' : MenuState}
    (hown : σ.ownItem user itemId = some item) (hi : σ'.items = overlay σ.items [row])
    (hid : row.id = item.id) (hr : row.restaurantId = item.restaurantId) (ht : σ'.tables = σ.tables)
    (hn : σ.nextUuid ≤ σ'.nextUuid) : σ₀.Kept user σ' := by
  obtain ⟨hm, hr'⟩ := ownItem_some hown
  exact h.saved (hr.trans hr') ht hi hn (.inr ⟨item, hm, hid.symm, hr'⟩)

theorem handle (h : σ₀.Kept user σ) (call : MenuCall) :
    σ₀.Kept user (call.handle settings lib user σ).2 := by
  obtain ⟨request, c⟩ := call
  cases request with
  | createMenuItem body =>
    simp only [MenuCall.handle, createMenuItem]
    split
    · unfold save
      split
      · exact h.saved rfl rfl rfl (Nat.le_succ _) (.inl ⟨le_rfl, Nat.lt_succ_self _⟩)
      · exact { h with below := fun i hi => (h.below i hi).trans (Nat.lt_succ_self _) }
    · exact h
  | updateMenuItem itemId body =>
    simp only [MenuCall.handle, updateMenuItem]
    split
    next => exact h
    next item hown =>
      split
      · split
        next => exact h
        next row hrow =>
          obtain ⟨hid, hr⟩ := MenuItemUpdate.apply_keeps hrow
          unfold save
          split
          · exact h.replaceOwn hown rfl hid hr rfl le_rfl
          · exact h
      · exact h
  | uploadMenuItemImage itemId file =>
    simp only [MenuCall.handle, uploadMenuItemImage]
    split
    next => exact h
    next item hown =>
      split
      next => exact h
      next thumb large _ =>
        split
        · split
          · exact h.replaceOwn hown rfl rfl rfl rfl le_rfl
          · exact { h with }
        · exact { h with }
  | deleteMenuItemImage itemId =>
    simp only [MenuCall.handle, deleteMenuItemImage]
    split
    next => exact h
    next item hown =>
      split
      · exact h.replaceOwn hown rfl rfl rfl rfl le_rfl
      · exact h

end MenuState.Kept

/-- One request replaces exactly the foreign objects that it deletes by a discarded URL. -/
theorem handle_replaced (h : σ₀.Kept user σ) (hkey : σ₀.Foreign user key) (call : MenuCall) :
    key ∈ (call.handle settings lib user σ).2.store.replaced ↔
      key ∈ σ.store.replaced ∨ call.Deletes settings lib user σ key := by
  obtain ⟨request, c⟩ := call
  have hforeign : σ.Foreign user key := h.foreign.mpr hkey
  cases request with
  | createMenuItem body =>
    have hstore : (MenuCall.handle settings lib user σ ⟨.createMenuItem body, c⟩).2.store = σ.store := by
      simp only [MenuCall.handle, MenuState.createMenuItem, MenuState.save]
      split
      · split <;> rfl
      · rfl
    simp [hstore, MenuCall.Deletes, MenuCall.discards]
  | updateMenuItem itemId body =>
    have hstore : (MenuCall.handle settings lib user σ ⟨.updateMenuItem itemId body, c⟩).2.store = σ.store := by
      simp only [MenuCall.handle, MenuState.updateMenuItem, MenuState.save]
      split
      · rfl
      · split
        · split
          · rfl
          · split <;> rfl
        · rfl
    simp [hstore, MenuCall.Deletes, MenuCall.discards]
  | uploadMenuItemImage itemId file =>
    simp only [MenuCall.handle, MenuState.uploadMenuItemImage, MenuCall.Deletes, MenuCall.discards]
    cases hown : σ.ownItem user itemId with
    | none => simp
    | some item =>
      cases checkImage lib file with
      | error e => simp
      | ok images =>
        obtain ⟨hm, hr⟩ := ownItem_some hown
        have hthumb : key ≠ thumbKey item.id c.now := fun he =>
          not_foreign h.ids hm hr thumbKey_toList (he ▸ hforeign)
        have hlarge : key ≠ largeKey item.id c.now := fun he =>
          not_foreign h.ids hm hr largeKey_toList (he ▸ hforeign)
        have hreplaced : key ∈ (uploadFile settings c (uploadFile settings c σ.store (thumbKey item.id c.now)
            images.1).2 (largeKey item.id c.now) images.2).2.replaced ↔ key ∈ σ.store.replaced :=
          (ObjectStore.uploadFile_replaced hlarge).trans (ObjectStore.uploadFile_replaced hthumb)
        have hobjects : (uploadFile settings c (uploadFile settings c σ.store (thumbKey item.id c.now)
            images.1).2 (largeKey item.id c.now) images.2).2.objects key = σ.store.objects key :=
          (ObjectStore.uploadFile_objects hlarge).trans (ObjectStore.uploadFile_objects hthumb)
        simp only [ObjectStore.uploadFile_url]
        by_cases ht : c.put (thumbKey item.id c.now) = .stored
        · by_cases hl : c.put (largeKey item.id c.now) = .stored
          · cases hc : c.commits with
            | false => simp [ht, hl, hreplaced]
            | true => simp [ht, hl, mem_discardImages, hreplaced, hobjects]
          · simp [hl, hreplaced]
        · simp [ht, hreplaced]
  | deleteMenuItemImage itemId =>
    simp only [MenuCall.handle, MenuState.deleteMenuItemImage, MenuCall.Deletes, MenuCall.discards]
    cases hown : σ.ownItem user itemId with
    | none => simp
    | some item =>
      cases hc : c.commits with
      | false => simp
      | true => simp only [if_true, mem_discardImages]

theorem run_snoc (σ : MenuState) (calls : List MenuCall) (call : MenuCall) :
    σ.run settings lib user (calls ++ [call]) = (call.handle settings lib user (σ.run settings lib user calls)).2 := by
  rw [MenuState.run, List.foldl_append]
  rfl

theorem MenuState.Kept.run (h : σ₀.Kept user σ₀) (calls : List MenuCall) :
    σ₀.Kept user (σ₀.run settings lib user calls) := by
  induction calls using List.reverseRecOn with
  | nil => exact h
  | append_singleton calls call ih =>
    rw [run_snoc]
    exact ih.handle call

/-- The foreign objects that a run replaces are those that one of its requests deletes. -/
theorem run_replaced (h : σ₀.Kept user σ₀) (hkey : σ₀.Foreign user key) (calls : List MenuCall) :
    key ∈ (σ₀.run settings lib user calls).store.replaced ↔ key ∈ σ₀.store.replaced ∨
      ∃ before call after, calls = before ++ call :: after ∧
        call.Deletes settings lib user (σ₀.run settings lib user before) key := by
  induction calls using List.reverseRecOn with
  | nil => simp [MenuState.run]
  | append_singleton calls call ih =>
    rw [run_snoc, handle_replaced (h.run calls) hkey, ih]
    constructor
    · rintro ((hm | ⟨before, x, after, rfl, hx⟩) | hx)
      · exact .inl hm
      · exact .inr ⟨before, x, after ++ [call], by simp, hx⟩
      · exact .inr ⟨calls, call, [], rfl, hx⟩
    · rintro (hm | ⟨before, x, after, he, hx⟩)
      · exact .inl (.inl hm)
      · rcases List.eq_nil_or_concat after with rfl | ⟨after, y, rfl⟩
        · obtain ⟨rfl, hy⟩ := List.append_inj' he rfl
          cases hy
          exact .inr hx
        · rw [List.concat_eq_append, ← List.cons_append, ← List.append_assoc] at he
          obtain ⟨rfl, -⟩ := List.append_inj' he rfl
          exact .inl (.inr ⟨before, x, after, rfl, hx⟩)

/-- Where sequences of requests start. -/
structure MenuState.Fresh (σ : MenuState) : Prop where
  ids : UniqueKeys σ.items
  below : ∀ i ∈ σ.items, i.id < σ.nextUuid
  replaced : σ.store.replaced = []

/-- A sequence of requests replaces no object of another restaurant exactly if no request
deletes one by a discarded URL. -/
theorem bucket_isolation (hfresh : σ₀.Fresh) (calls : List MenuCall) :
    (∀ key ∈ (σ₀.run settings lib user calls).store.replaced, ¬ σ₀.Foreign user key) ↔
      ∀ before call after, calls = before ++ call :: after → ∀ key, σ₀.Foreign user key →
        ¬ call.Deletes settings lib user (σ₀.run settings lib user before) key := by
  have h : σ₀.Kept user σ₀ := ⟨rfl, fun _ _ => Iff.rfl, hfresh.ids, hfresh.below⟩
  constructor
  · intro hsafe before call after he key hkey hdeletes
    have hm := (run_replaced h hkey calls).mpr (.inr ⟨before, call, after, he, hdeletes⟩)
    exact hsafe key hm hkey
  · intro hsafe key hm hkey
    rcases (run_replaced h hkey calls).mp hm with hm | ⟨before, call, after, he, hdeletes⟩
    · rw [hfresh.replaced] at hm
      cases hm
    · exact hsafe before call after he key hkey hdeletes

end Run

section TwoMenus

/-- One restaurant with a dish, and another with a table whose QR image is in the bucket. -/
def twoMenus : MenuState where
  tables := [{ id := 7, restaurantId := 2, qrToken := "ban-7" }]
  categories := []
  items := [{ id := 3, restaurantId := 1, categoryId := none, name := "Phở bò", description := none,
              price := 5000000, prepTimeMinutes := 10, imageUrl := none, isFeatured := false, sortOrder := 0 }]
  store := { objects := fun key => if key = qrKey 7 then some [137] else none }
  nextUuid := 10

theorem twoMenus_fresh : twoMenus.Fresh := ⟨by decide, by decide, rfl⟩

theorem twoMenus_foreign : twoMenus.Foreign cafeStaff (qrKey 7) :=
  ⟨2, by decide, .inl ⟨_, List.mem_singleton_self _, rfl, rfl⟩⟩

def fairWeather : Conditions := ⟨1700000000, fun _ => .stored, fun _ => true, true⟩

def noPillow : ImageLibrary := ⟨fun _ => .error "Tệp không phải ảnh hợp lệ hoặc đã bị lỗi."⟩

def photo : UploadFile := ⟨some "image/png", [137, 80, 78, 71]⟩

def copies : ImageLibrary := ⟨fun raw => .ok (raw, raw)⟩

/-- The dish is given a photo, and loses it again. -/
def photoCalls : List MenuCall := [⟨.uploadMenuItemImage 3 photo, fairWeather⟩, ⟨.deleteMenuItemImage 3, fairWeather⟩]

theorem photoCalls_item : ∃ i, (twoMenus.run assets copies cafeStaff (photoCalls.take 1)).ownItem cafeStaff 3 = some i ∧
    i.imageUrl = some (getPublicUrl assets (thumbKey 3 1700000000)) ∧
      i.imageLargeUrl = some (getPublicUrl assets (largeKey 3 1700000000)) :=
  ⟨_, rfl, rfl, rfl⟩

theorem photoUrl_parsed : ∀ key ∈ [thumbKey 3 1700000000, largeKey 3 1700000000],
    keyFromPublicUrl assets (getPublicUrl assets key) = some key := by
  decide +kernel

/-- The objects that are deleted are those of the own photo. -/
theorem bucket_isolation_two : thumbKey 3 1700000000 ∈ (twoMenus.run assets copies cafeStaff photoCalls).store.replaced ∧
    ∀ key ∈ (twoMenus.run assets copies cafeStaff photoCalls).store.replaced, ¬ twoMenus.Foreign cafeStaff key := by
  refine ⟨by decide +kernel, (bucket_isolation twoMenus_fresh _).mpr fun before call after he key hkey hdeletes => ?_⟩
  obtain ⟨⟨url, hurl, hparse⟩, -⟩ := hdeletes
  rcases before with - | ⟨x, - | ⟨y, before⟩⟩
  · obtain ⟨rfl, -⟩ := List.cons.inj he
    have hdiscards : MenuCall.discards copies cafeStaff twoMenus ⟨.uploadMenuItemImage 3 photo, fairWeather⟩ =
        [none, none] := rfl
    rw [MenuState.run, List.foldl_nil, hdiscards] at hurl
    simp at hurl
  · obtain ⟨rfl, hrest⟩ := List.cons.inj he
    obtain ⟨rfl, -⟩ := List.cons.inj hrest
    obtain ⟨i, hitem, hu, hl⟩ := photoCalls_item
    have hdiscards : MenuCall.discards copies cafeStaff (twoMenus.run assets copies cafeStaff (photoCalls.take 1))
        ⟨.deleteMenuItemImage 3, fairWeather⟩ = [i.imageUrl, i.imageLargeUrl] := by
      simp [MenuCall.discards, hitem, fairWeather]
    change some url ∈ MenuCall.discards copies cafeStaff (twoMenus.run assets copies cafeStaff (photoCalls.take 1))
      ⟨.deleteMenuItemImage 3, fairWeather⟩ at hurl
    rw [hdiscards, hu, hl] at hurl
    have hown (h : ∃ rest, key.toList = "menu/".toList ++ (uuidDigits 3 ++ '/' :: rest)) : False :=
      not_foreign twoMenus_fresh.ids (List.mem_singleton_self _) rfl h hkey
    rcases List.mem_pair.mp hurl with hurl | hurl
    · rw [Option.some.inj hurl, photoUrl_parsed _ List.mem_cons_self] at hparse
      exact hown (Option.some.inj hparse ▸ thumbKey_toList)
    · rw [Option.some.inj hurl, photoUrl_parsed _ (List.mem_cons_of_mem _ List.mem_cons_self)] at hparse
      exact hown (Option.some.inj hparse ▸ largeKey_toList)
  · have hlen := congrArg List.length he
    simp [photoCalls] at hlen

/-- The dish is given the URL of the other restaurant's QR image. -/
def borrow : MenuCall :=
  ⟨.updateMenuItem 3 { imageUrl := some (some ("/qorder-assets/" ++ qrKey 7)) }, fairWeather⟩

/-- Then the photo is deleted, and with it the QR image. -/
theorem bucket_isolation_fails : ¬ ∀ (settings : StorageSettings) (lib : ImageLibrary)
    (user : TokenPayload) (σ₀ : MenuState) (calls : List MenuCall), σ₀.Fresh →
      ∀ key ∈ (σ₀.run settings lib user calls).store.replaced, ¬ σ₀.Foreign user key := by
  intro h
  have hkept : twoMenus.Kept cafeStaff twoMenus :=
    ⟨rfl, fun _ _ => Iff.rfl, twoMenus_fresh.ids, twoMenus_fresh.below⟩
  have hdiscards : MenuCall.discards noPillow cafeStaff (twoMenus.run assets noPillow cafeStaff [borrow])
      ⟨.deleteMenuItemImage 3, fairWeather⟩ = [some ("/qorder-assets/" ++ qrKey 7), none] := rfl
  have hne : qrKey 7 ≠ "" := by simp [qrKey]
  have hurl : keyFromPublicUrl assets ("/" ++ assets.s3Bucket ++ "/" ++ qrKey 7) = some (qrKey 7) :=
    keyFromPublicUrl_bucket hne
  have hdeletes : MenuCall.Deletes assets noPillow cafeStaff
      (twoMenus.run assets noPillow cafeStaff [borrow]) ⟨.deleteMenuItemImage 3, fairWeather⟩ (qrKey 7) := by
    refine ⟨⟨_, ?_, hurl⟩, ?_, rfl⟩
    · rw [hdiscards]
      exact List.mem_cons_self
    · change (if qrKey 7 = qrKey 7 then some [137] else none : Option Blob).isSome
      rw [if_pos rfl, Option.isSome_some]
  have hreplaced := (run_replaced hkept twoMenus_foreign [borrow, ⟨.deleteMenuItemImage 3, fairWeather⟩]).mpr
    (.inr ⟨[borrow], _, [], rfl, hdeletes⟩)
  exact h _ _ _ _ _ twoMenus_fresh _ hreplaced twoMenus_foreign

end TwoMenus

end QOrder
