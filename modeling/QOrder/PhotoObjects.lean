import QOrder.BucketIsolation
import QOrder.PublicUrls

/-! The photos of the menu items and their objects. The keys are stamped with the second of
the upload, and the objects of the former photos are deleted after the new ones are stored. -/

namespace QOrder

open KeyedTable

/-- The URL is that of an object in the store. -/
def ObjectStore.Names (settings : StorageSettings) (store : ObjectStore) (url : String) : Prop :=
  ∃ key, url = getPublicUrl settings key ∧ (store.objects key).isSome

def MenuItemRow.Unphotographed (i : MenuItemRow) : Prop := i.imageUrl = none ∧ i.imageLargeUrl = none

/-- Both URLs of an item are null, or both name objects. -/
def MenuState.PhotosStored (settings : StorageSettings) (σ : MenuState) : Prop :=
  ∀ i ∈ σ.items, i.Unphotographed ∨ ∃ url largeUrl, i.imageUrl = some url ∧ i.imageLargeUrl = some largeUrl ∧
    σ.store.Names settings url ∧ σ.store.Names settings largeUrl

/-- Uploads and deletions of photos, by the administrators of all restaurants. -/
inductive PhotoRequest
  | upload (itemId : Uuid) (file : UploadFile)
  | delete (itemId : Uuid)

structure PhotoCall where
  user : TokenPayload
  request : PhotoRequest
  conditions : Conditions

def PhotoCall.menuCall (call : PhotoCall) : MenuCall where
  request := match call.request with
    | .upload itemId file => .uploadMenuItemImage itemId file
    | .delete itemId => .deleteMenuItemImage itemId
  conditions := call.conditions

def PhotoCall.after (settings : StorageSettings) (lib : ImageLibrary) (σ : MenuState) (call : PhotoCall) :
    MenuState :=
  (call.menuCall.handle settings lib call.user σ).2

def MenuState.photoRun (settings : StorageSettings) (lib : ImageLibrary) (σ : MenuState)
    (calls : List PhotoCall) : MenuState :=
  calls.foldl (PhotoCall.after settings lib) σ

/-- An upload goes through in the second of the photo that it replaces: the object of a key
that it has just stored is deleted. -/
def PhotoCall.Collides (settings : StorageSettings) (lib : ImageLibrary) (σ : MenuState)
    (call : PhotoCall) : Prop :=
  ∃ itemId file, call.request = .upload itemId file ∧
    ∃ key ∈ [thumbKey itemId call.conditions.now, largeKey itemId call.conditions.now],
      some (getPublicUrl settings key) ∈ call.menuCall.discards lib call.user σ ∧
        keyFromPublicUrl settings (getPublicUrl settings key) = some key ∧ call.conditions.deletes key = true

section Keys

variable {settings : StorageSettings} {itemId k : Uuid} {version : Int} {key key' : String}

theorem slash_not_mem_version : '/' ∉ (toString version).toList := by
  have hdigits (m : Nat) : '/' ∉ m.repr.toList := by
    rw [Nat.toList_repr]
    intro h
    have hdigit := Nat.isDigit_of_mem_toDigits (by decide) (by decide) h
    exact absurd hdigit (by decide)
  cases version with
  | ofNat m => exact hdigits m
  | negSucc m =>
    have hneg : (toString (Int.negSucc m)).toList = '-' :: (m + 1).repr.toList := by
      simp [Int.toString_eq_repr, Int.repr]
    rw [hneg, List.mem_cons]
    exact not_or.mpr ⟨by decide, hdigits _⟩

/-- The key of a photo of the item. -/
def PhotoKey (itemId : Uuid) (key : String) : Prop :=
  ∃ version, key = thumbKey itemId version ∨ key = largeKey itemId version

theorem PhotoKey.toList (h : PhotoKey itemId key) : ∃ rest, '/' ∉ rest ∧
    key.toList = "menu".toList ++ '/' :: (uuidDigits itemId ++ '/' :: rest) := by
  obtain ⟨version, rfl | rfl⟩ := h
  · refine ⟨"thumb-".toList ++ (toString version).toList ++ ".webp".toList, ?_, by simp [thumbKey, uuidStr]⟩
    simp only [List.mem_append, not_or]
    exact ⟨⟨by decide, slash_not_mem_version⟩, by decide⟩
  · refine ⟨"large-".toList ++ (toString version).toList ++ ".webp".toList, ?_, by simp [largeKey, uuidStr]⟩
    simp only [List.mem_append, not_or]
    exact ⟨⟨by decide, slash_not_mem_version⟩, by decide⟩

theorem PhotoKey.ne_empty (h : PhotoKey itemId key) : key ≠ "" := by
  obtain ⟨rest, -, hkey⟩ := h.toList
  intro he
  simp [he] at hkey

/-- The photos of different items have different keys. -/
theorem PhotoKey.item_eq (h : PhotoKey itemId key) (h' : PhotoKey k key) : itemId = k := by
  obtain ⟨rest, -, hkey⟩ := h.toList
  obtain ⟨rest', -, hkey'⟩ := h'.toList
  have hcut := (List.cons.inj (List.append_cancel_left (hkey.symm.trans hkey'))).2
  exact uuidDigits_inj (split_char (slash_not_mem_uuidDigits _) (slash_not_mem_uuidDigits _) hcut).1

/-- A key of a photo is not the end of a longer one. -/
theorem PhotoKey.eq_of_suffix (h : PhotoKey itemId key) (h' : PhotoKey k key')
    (hs : key.toList <:+ key'.toList) : key' = key := by
  obtain ⟨pre, hpre⟩ := hs
  obtain ⟨rest, hrest, hkey⟩ := h.toList
  obtain ⟨rest', hrest', hkey'⟩ := h'.toList
  have hslash : '/' ∉ pre := by
    have hcount := congrArg (List.count '/') hpre
    rw [List.count_append, hkey, hkey'] at hcount
    have hnone (k : Uuid) : List.count '/' (uuidDigits k) = 0 := List.count_eq_zero.mpr (slash_not_mem_uuidDigits k)
    simp [hnone, List.count_eq_zero.mpr hrest, List.count_eq_zero.mpr hrest'] at hcount
    exact List.count_eq_zero.mp hcount
  have hcat := hpre
  rw [hkey, hkey', ← List.append_assoc] at hcat
  have hmenu : '/' ∉ "menu".toList := by decide
  have hcut := (split_char (List.mem_append.not.mpr (not_or.mpr ⟨hslash, hmenu⟩)) hmenu hcat).1
  have hnil : pre = [] := by
    have hlen := congrArg List.length hcut
    rw [List.length_append] at hlen
    exact List.length_eq_zero_iff.mp (by omega)
  rw [hnil, List.nil_append] at hpre
  exact (String.toList_inj.mp hpre).symm

/-- A photo's URL is parsed to no key of a photo but its own. -/
theorem PhotoKey.parsed (h : PhotoKey itemId key) (h' : PhotoKey k key')
    (hp : keyFromPublicUrl settings (getPublicUrl settings key) = some key') : key' = key := by
  obtain ⟨base, hurl, -⟩ := (keyFromPublicUrl_eq_some h'.ne_empty).mp hp
  rw [getPublicUrl_toList, ← List.append_assoc, ← List.append_assoc] at hurl
  have hend : key.toList <:+ settings.base ++ settings.marker ++ key.toList := List.suffix_append ..
  have hend' : key'.toList <:+ settings.base ++ settings.marker ++ key.toList := hurl ▸ List.suffix_append ..
  rcases List.suffix_or_suffix_of_suffix hend hend' with hs | hs
  · exact h.eq_of_suffix h' hs
  · exact (h'.eq_of_suffix h hs).symm

end Keys

section Discard

variable {settings : StorageSettings} {c : Conditions} {store : ObjectStore} {key : String} {data : Blob}

theorem names_url : store.Names settings (getPublicUrl settings key) ↔ (store.objects key).isSome := by
  constructor
  · rintro ⟨key', hurl, hsome⟩
    have hkey : key.toList = key'.toList := by
      have hlist := congrArg String.toList hurl
      rw [getPublicUrl_toList, getPublicUrl_toList] at hlist
      exact List.append_cancel_left (List.append_cancel_left hlist)
    rwa [String.toList_inj.mp hkey]
  · exact fun hsome => ⟨key, rfl, hsome⟩

theorem discardImages_objects {urls : List (Option String)} :
    ((discardImages settings c urls store).objects key).isSome ↔ (store.objects key).isSome ∧
      ∀ url, some url ∈ urls → keyFromPublicUrl settings url = some key → c.deletes key = false := by
  induction urls generalizing store with
  | nil => simp [discardImages]
  | cons url urls ih =>
    rw [discardImages, ih, key_of_filter]
    cases url with
    | none => simp
    | some url =>
      cases hk : keyFromPublicUrl settings url with
      | none => simp [hk]
      | some k =>
        simp only [Option.bind_some, hk, deleteFile_objects, List.mem_cons, Option.some.injEq, forall_eq_or_imp]
        rw [and_assoc, @eq_comm _ key k]

theorem uploadFile_grows {k : String} (h : (store.objects k).isSome) :
    ((uploadFile settings c store key data).2.objects k).isSome := by
  by_cases hk : k = key
  · subst hk
    unfold uploadFile
    cases c.put k with
    | stored | unanswered => simp [ObjectStore.putObject, ObjectStore.replace]
    | failed => exact h
  · rwa [ObjectStore.uploadFile_objects hk]

theorem uploadFile_stored (h : c.put key = .stored) :
    ((uploadFile settings c store key data).2.objects key).isSome := by
  simp [uploadFile, h, ObjectStore.putObject, ObjectStore.replace]

end Discard

section Step

variable {settings : StorageSettings} {lib : ImageLibrary} {σ : MenuState} {call : PhotoCall}

/-- What one request does: it saves no row, or it replaces or removes the photo of one. -/
inductive PhotoCall.Effect (settings : StorageSettings) (lib : ImageLibrary) (σ : MenuState) (call : PhotoCall) :
    MenuState → Prop
  | kept {store : ObjectStore} (grows : ∀ key, (σ.store.objects key).isSome → (store.objects key).isSome)
      (discards : call.menuCall.discards lib call.user σ = []) : Effect settings lib σ call { σ with store }
  | uploaded {item : MenuItemRow} {file : UploadFile} {store : ObjectStore} (mem : item ∈ σ.items)
      (request : call.request = .upload item.id file)
      (grows : ∀ key, (σ.store.objects key).isSome → (store.objects key).isSome)
      (thumb : (store.objects (thumbKey item.id call.conditions.now)).isSome)
      (large : (store.objects (largeKey item.id call.conditions.now)).isSome)
      (discards : call.menuCall.discards lib call.user σ = [item.imageUrl, item.imageLargeUrl]) :
      Effect settings lib σ call
        { σ with
          items := overlay σ.items [{ item with
            imageUrl := some (getPublicUrl settings (thumbKey item.id call.conditions.now))
            imageLargeUrl := some (getPublicUrl settings (largeKey item.id call.conditions.now)) }]
          store := discardImages settings call.conditions [item.imageUrl, item.imageLargeUrl] store }
  | deleted {item : MenuItemRow} (mem : item ∈ σ.items) (request : call.request = .delete item.id) :
      Effect settings lib σ call
        { σ with
          items := overlay σ.items [{ item with imageUrl := none, imageLargeUrl := none }]
          store := discardImages settings call.conditions [item.imageUrl, item.imageLargeUrl] σ.store }

theorem ownItem_id {user : TokenPayload} {itemId : Uuid} {item : MenuItemRow}
    (h : σ.ownItem user itemId = some item) : item.id = itemId := by
  have hp := List.find?_some h
  simp only [Bool.and_eq_true, beq_iff_eq] at hp
  exact hp.1

variable (settings lib σ call) in
theorem PhotoCall.effect : call.Effect settings lib σ (call.after settings lib σ) := by
  obtain ⟨user, request, c⟩ := call
  cases request with
  | upload itemId file =>
    simp only [after, menuCall, MenuCall.handle, MenuState.uploadMenuItemImage]
    cases hown : σ.ownItem user itemId with
    | none => exact .kept (fun _ h => h) (by simp [menuCall, MenuCall.discards, hown])
    | some item =>
      obtain ⟨hm, -⟩ := ownItem_some hown
      have hid := ownItem_id hown
      cases himage : checkImage lib file with
      | error e => exact .kept (fun _ h => h) (by simp [menuCall, MenuCall.discards, hown, himage])
      | ok images =>
        have hgrows (key : String) (h : (σ.store.objects key).isSome) :
            ((uploadFile settings c (uploadFile settings c σ.store (thumbKey item.id c.now) images.1).2
              (largeKey item.id c.now) images.2).2.objects key).isSome :=
          uploadFile_grows (uploadFile_grows h)
        simp only [ObjectStore.uploadFile_url]
        by_cases ht : c.put (thumbKey item.id c.now) = .stored
        · by_cases hl : c.put (largeKey item.id c.now) = .stored
          · by_cases hc : c.commits = true
            · simp only [ht, hl, hc, if_true]
              subst hid
              exact .uploaded hm rfl hgrows (uploadFile_grows (uploadFile_stored ht)) (uploadFile_stored hl)
                (by simp [menuCall, MenuCall.discards, hown, himage, ht, hl, hc])
            · simp only [ht, hl, hc, if_true]
              exact .kept hgrows (by simp [menuCall, MenuCall.discards, hown, himage, hc])
          · simp only [ht, hl, if_true, if_false]
            exact .kept hgrows (by simp [menuCall, MenuCall.discards, hown, himage, hl])
        · simp only [ht, if_false]
          exact .kept hgrows (by simp [menuCall, MenuCall.discards, hown, himage, ht])
  | delete itemId =>
    simp only [after, menuCall, MenuCall.handle, MenuState.deleteMenuItemImage]
    cases hown : σ.ownItem user itemId with
    | none => exact .kept (fun _ h => h) (by simp [menuCall, MenuCall.discards, hown])
    | some item =>
      obtain ⟨hm, -⟩ := ownItem_some hown
      have hid := ownItem_id hown
      subst hid
      by_cases hc : c.commits = true
      · simp only [hc, if_true]
        exact .deleted hm rfl
      · simp only [hc]
        exact .kept (fun _ h => h) (by simp [menuCall, MenuCall.discards, hown, hc])

/-- One of the item's URLs is that of the key. -/
def MenuItemRow.Shows (settings : StorageSettings) (i : MenuItemRow) (key : String) : Prop :=
  i.imageUrl = some (getPublicUrl settings key) ∨ i.imageLargeUrl = some (getPublicUrl settings key)

/-- The URLs of an item are those of one upload. -/
structure MenuState.Photos (settings : StorageSettings) (σ : MenuState) : Prop where
  ids : UniqueKeys σ.items
  urls : ∀ i ∈ σ.items, i.Unphotographed ∨ ∃ version,
    i.imageUrl = some (getPublicUrl settings (thumbKey i.id version)) ∧
      i.imageLargeUrl = some (getPublicUrl settings (largeKey i.id version))

theorem url_inj {key key' : String} (h : getPublicUrl settings key = getPublicUrl settings key') : key = key' := by
  have hlist := congrArg String.toList h
  rw [getPublicUrl_toList, getPublicUrl_toList] at hlist
  exact String.toList_inj.mp (List.append_cancel_left (List.append_cancel_left hlist))

theorem MenuState.Photos.photoKey (h : σ.Photos settings) {i : MenuItemRow} (hi : i ∈ σ.items) {key : String}
    (hs : i.Shows settings key) : PhotoKey i.id key := by
  rcases h.urls i hi with ⟨hu, hl⟩ | ⟨version, hu, hl⟩
  · rcases hs with hs | hs
    · simp [hu] at hs
    · simp [hl] at hs
  · rcases hs with hs | hs
    · exact ⟨version, .inl (url_inj (Option.some.inj (hs.symm.trans hu)))⟩
    · exact ⟨version, .inr (url_inj (Option.some.inj (hs.symm.trans hl)))⟩

theorem MenuState.Photos.stored_iff (h : σ.Photos settings) : σ.PhotosStored settings ↔
    ∀ i ∈ σ.items, ∀ key, i.Shows settings key → (σ.store.objects key).isSome := by
  constructor
  · intro hstored i hi key hs
    rcases hstored i hi with ⟨hu, hl⟩ | ⟨url, largeUrl, hu, hl, hnames, hlarge⟩
    · rcases hs with hs | hs
      · simp [hu] at hs
      · simp [hl] at hs
    · rcases hs with hs | hs
      · exact names_url.mp (Option.some.inj (hs.symm.trans hu) ▸ hnames)
      · exact names_url.mp (Option.some.inj (hs.symm.trans hl) ▸ hlarge)
  · intro hkeys i hi
    rcases h.urls i hi with hnone | ⟨version, hu, hl⟩
    · exact .inl hnone
    · exact .inr ⟨_, _, hu, hl, names_url.mpr (hkeys i hi _ (.inl hu)), names_url.mpr (hkeys i hi _ (.inr hl))⟩

/-- A discard of an item's photo deletes no key of a photo but its own. -/
theorem MenuState.Photos.discarded (h : σ.Photos settings) {item : MenuItemRow} (hm : item ∈ σ.items)
    {c : Conditions} {store : ObjectStore} {k : Uuid} {key : String} (hk : PhotoKey k key) :
    ((discardImages settings c [item.imageUrl, item.imageLargeUrl] store).objects key).isSome ↔
      (store.objects key).isSome ∧ (item.Shows settings key →
        keyFromPublicUrl settings (getPublicUrl settings key) = some key → c.deletes key = false) := by
  rw [discardImages_objects]
  refine and_congr_right fun _ => ?_
  constructor
  · intro hkept hs
    apply hkept
    simpa [MenuItemRow.Shows, eq_comm] using hs
  · intro hkept url hurl hparse
    have hshown : ∃ key', url = getPublicUrl settings key' ∧ item.Shows settings key' := by
      simp only [List.mem_cons, List.not_mem_nil, or_false] at hurl
      rcases h.urls item hm with ⟨hu, hl⟩ | ⟨version, hu, hl⟩
      · simp [hu, hl] at hurl
      · rcases hurl with hurl | hurl
        · exact ⟨_, Option.some.inj (hurl.trans hu), .inl hu⟩
        · exact ⟨_, Option.some.inj (hurl.trans hl), .inr hl⟩
    obtain ⟨key', rfl, hs⟩ := hshown
    have hown : key = key' := (h.photoKey hm hs).parsed hk hparse
    subst hown
    exact hkept hs hparse

/-- The photos of the other items are untouched by a discard. -/
theorem MenuState.Photos.others (h : σ.Photos settings) {item i : MenuItemRow} (hm : item ∈ σ.items)
    (hi : i ∈ σ.items) (hne : i.id ≠ item.id) {c : Conditions} {store : ObjectStore} {key : String}
    (hs : i.Shows settings key) (hsome : (store.objects key).isSome) :
    ((discardImages settings c [item.imageUrl, item.imageLargeUrl] store).objects key).isSome := by
  have hk := h.photoKey hi hs
  refine (h.discarded hm hk).mpr ⟨hsome, fun hshown => ?_⟩
  exact absurd (hk.item_eq (h.photoKey hm hshown)) hne

variable (lib call) in
theorem MenuState.Photos.step (h : σ.Photos settings) : (call.after settings lib σ).Photos settings := by
  have hsaved {row : MenuItemRow} (hrow : row.Unphotographed ∨ ∃ version,
      row.imageUrl = some (getPublicUrl settings (thumbKey row.id version)) ∧
        row.imageLargeUrl = some (getPublicUrl settings (largeKey row.id version))) (store : ObjectStore) :
      MenuState.Photos settings { σ with items := overlay σ.items [row], store } := by
    refine ⟨uniqueKeys_overlay h.ids (uniqueKeys_singleton row), fun i hi => ?_⟩
    rcases mem_of_mem_overlay hi with hi | hi
    · rwa [List.mem_singleton.mp hi]
    · exact h.urls i hi
  have heffect := call.effect settings lib σ
  generalize call.after settings lib σ = σ' at heffect ⊢
  cases heffect with
  | kept grows discards => exact ⟨h.ids, h.urls⟩
  | uploaded mem request grows thumb large discards => exact hsaved (.inr ⟨_, rfl, rfl⟩) _
  | deleted mem request => exact hsaved (.inl ⟨rfl, rfl⟩) _

variable (lib call) in
/-- A request leaves every photo stored exactly if it does not collide. -/
theorem MenuState.Photos.stored_step (h : σ.Photos settings) (hstored : σ.PhotosStored settings) :
    (call.after settings lib σ).PhotosStored settings ↔ ¬ call.Collides settings lib σ := by
  rw [(h.step lib call).stored_iff]
  have hkeys := h.stored_iff.mp hstored
  have heffect := call.effect settings lib σ
  generalize call.after settings lib σ = σ' at heffect ⊢
  cases heffect with
  | kept grows discards =>
    have hsafe : ¬ call.Collides settings lib σ := by
      rintro ⟨itemId, file, -, key, -, hmem, -⟩
      simp [discards] at hmem
    exact iff_of_true (fun i hi key hs => grows key (hkeys i hi key hs)) hsafe
  | @uploaded item file store mem request grows thumb large discards =>
    have hcollides : call.Collides settings lib σ ↔
        ∃ key ∈ [thumbKey item.id call.conditions.now, largeKey item.id call.conditions.now],
          item.Shows settings key ∧ keyFromPublicUrl settings (getPublicUrl settings key) = some key ∧
            call.conditions.deletes key = true := by
      have hshows (key : String) : some (getPublicUrl settings key) ∈ call.menuCall.discards lib call.user σ ↔
          item.Shows settings key := by
        simp [discards, MenuItemRow.Shows, eq_comm]
      constructor
      · rintro ⟨itemId, file', he, key, hkey, hmem, hrest⟩
        obtain ⟨rfl, -⟩ := PhotoRequest.upload.inj (request.symm.trans he)
        exact ⟨key, hkey, (hshows key).mp hmem, hrest⟩
      · rintro ⟨key, hkey, hs, hrest⟩
        exact ⟨item.id, file, request, key, hkey, (hshows key).mpr hs, hrest⟩
    have hnew {key : String} (hkey : key ∈ [thumbKey item.id call.conditions.now, largeKey item.id call.conditions.now]) :
        PhotoKey item.id key ∧ (store.objects key).isSome := by
      rcases List.mem_pair.mp hkey with rfl | rfl
      · exact ⟨⟨_, .inl rfl⟩, thumb⟩
      · exact ⟨⟨_, .inr rfl⟩, large⟩
    rw [hcollides]
    constructor
    · rintro hall ⟨key, hkey, hs, hparse, hdeletes⟩
      have hshows : MenuItemRow.Shows settings
          { item with
            imageUrl := some (getPublicUrl settings (thumbKey item.id call.conditions.now))
            imageLargeUrl := some (getPublicUrl settings (largeKey item.id call.conditions.now)) } key := by
        rcases List.mem_pair.mp hkey with rfl | rfl
        · exact .inl rfl
        · exact .inr rfl
      have hsome := hall _ ((mem_overlay_one h.ids).mpr (.inl rfl)) key hshows
      have hkept := ((h.discarded mem (hnew hkey).1).mp hsome).2 hs hparse
      rw [hdeletes] at hkept
      cases hkept
    · intro hsafe i hi key hs
      rcases (mem_overlay_one h.ids).mp hi with rfl | ⟨hi, hne⟩
      · have hkey : key ∈ [thumbKey item.id call.conditions.now, largeKey item.id call.conditions.now] := by
          rcases hs with hs | hs
          · exact List.mem_pair.mpr (.inl (url_inj (Option.some.inj hs).symm))
          · exact List.mem_pair.mpr (.inr (url_inj (Option.some.inj hs).symm))
        refine (h.discarded mem (hnew hkey).1).mpr ⟨(hnew hkey).2, fun hshown hparse => ?_⟩
        by_contra hdeletes
        exact hsafe ⟨key, hkey, hshown, hparse, Bool.eq_true_of_not_eq_false hdeletes⟩
      · exact h.others mem hi hne hs (grows key (hkeys i hi key hs))
  | @deleted item mem request =>
    have hsafe : ¬ call.Collides settings lib σ := by
      rintro ⟨itemId, file, he, -⟩
      cases request.symm.trans he
    refine iff_of_true (fun i hi key hs => ?_) hsafe
    rcases (mem_overlay_one h.ids).mp hi with rfl | ⟨hi, hne⟩
    · rcases hs with hs | hs <;> cases hs
    · exact h.others mem hi hne hs (hkeys i hi key hs)

/-- After each of a sequence of requests all photos are stored, exactly if none collides. -/
theorem photos_stored {σ₀ : MenuState} (hids : UniqueKeys σ₀.items) (hnone : ∀ i ∈ σ₀.items, i.Unphotographed)
    (calls : List PhotoCall) :
    (∀ before after, calls = before ++ after → (σ₀.photoRun settings lib before).PhotosStored settings) ↔
      ∀ before call after, calls = before ++ call :: after →
        ¬ call.Collides settings lib (σ₀.photoRun settings lib before) := by
  have h₀ : σ₀.Photos settings := ⟨hids, fun i hi => .inl (hnone i hi)⟩
  have hstored : σ₀.PhotosStored settings := fun i hi => .inl (hnone i hi)
  clear hids hnone
  induction calls generalizing σ₀ with
  | nil =>
    refine iff_of_true (fun before after he => ?_) (fun before call after he => ?_)
    · obtain ⟨rfl, -⟩ := List.append_eq_nil_iff.mp he.symm
      exact hstored
    · simp at he
  | cons call calls ih =>
    have hstep := h₀.stored_step lib call hstored
    constructor
    · intro hall before x after he
      have hfirst : (call.after settings lib σ₀).PhotosStored settings := hall [call] calls rfl
      cases before with
      | nil =>
        obtain ⟨rfl, -⟩ := List.cons_eq_cons.mp he
        exact hstep.mp hfirst
      | cons y before =>
        obtain ⟨rfl, hrest⟩ := List.cons_eq_cons.mp he
        refine (ih (h₀.step lib call) hfirst).mp (fun b a hb => ?_) before x after hrest
        exact hall (call :: b) a (by rw [hb, List.cons_append])
    · intro hall before after he
      cases before with
      | nil => exact hstored
      | cons y before =>
        obtain ⟨rfl, hrest⟩ := List.cons_eq_cons.mp he
        have hfirst := hstep.mpr (hall [] call calls rfl)
        refine (ih (h₀.step lib call) hfirst).mpr (fun b x a hb => ?_) before after hrest
        exact hall (call :: b) x a (by rw [hb, List.cons_append])

end Step

section TwoMenus

def uploadAt (now : Int) : PhotoCall := ⟨cafeStaff, .upload 3 photo, { fairWeather with now }⟩

theorem twoMenus_unphotographed : ∀ i ∈ twoMenus.items, i.Unphotographed := by
  intro i hi
  rw [List.mem_singleton.mp hi]
  exact ⟨rfl, rfl⟩

theorem uploadAt_discards (now : Int) (σ : MenuState) {i : MenuItemRow} (hown : σ.ownItem cafeStaff 3 = some i) :
    (uploadAt now).menuCall.discards copies cafeStaff σ = [i.imageUrl, i.imageLargeUrl] := by
  have himage : checkImage copies photo = .ok (photo.bytes, photo.bytes) := by decide
  simp [uploadAt, PhotoCall.menuCall, MenuCall.discards, hown, himage, fairWeather]

/-- The dish after a photo. -/
theorem uploadAt_item (now : Int) : ∃ i, (twoMenus.photoRun assets copies [uploadAt now]).ownItem cafeStaff 3 = some i ∧
    i.imageUrl = some (getPublicUrl assets (thumbKey 3 now)) ∧
      i.imageLargeUrl = some (getPublicUrl assets (largeKey 3 now)) :=
  ⟨_, rfl, rfl, rfl⟩

/-- A photo, and another one a second later. -/
theorem photos_stored_two :
    (twoMenus.photoRun assets copies [uploadAt 1700000000, uploadAt 1700000001]).PhotosStored assets := by
  refine (photos_stored twoMenus_fresh.ids twoMenus_unphotographed _).mpr (fun before call after he => ?_) _ []
    (List.append_nil _).symm
  rintro ⟨itemId, file, hreq, key, hkey, hmem, -⟩
  rcases before with - | ⟨x, - | ⟨y, before⟩⟩
  · obtain ⟨rfl, -⟩ := List.cons_eq_cons.mp he
    have hdiscards : (uploadAt 1700000000).menuCall.discards copies cafeStaff twoMenus = [none, none] := rfl
    change _ ∈ (uploadAt 1700000000).menuCall.discards copies cafeStaff twoMenus at hmem
    simp [hdiscards] at hmem
  · obtain ⟨rfl, hrest⟩ := List.cons_eq_cons.mp he
    obtain ⟨rfl, -⟩ := List.cons_eq_cons.mp hrest
    obtain ⟨rfl, -⟩ := PhotoRequest.upload.inj hreq
    obtain ⟨i, hown, hu, hl⟩ := uploadAt_item 1700000000
    have hdiscards := uploadAt_discards 1700000001 _ hown
    rw [hu, hl] at hdiscards
    change _ ∈ (uploadAt 1700000001).menuCall.discards copies cafeStaff _ at hmem
    rw [hdiscards] at hmem
    have hold : key = thumbKey 3 1700000000 ∨ key = largeKey 3 1700000000 := by
      rcases List.mem_pair.mp hmem with hk | hk
      · exact .inl (url_inj (Option.some.inj hk))
      · exact .inr (url_inj (Option.some.inj hk))
    have hapart : ∀ k ∈ [thumbKey 3 1700000001, largeKey 3 1700000001],
        k ≠ thumbKey 3 1700000000 ∧ k ≠ largeKey 3 1700000000 := by
      decide +kernel
    rcases hold with hk | hk
    · exact (hapart key hkey).1 hk
    · exact (hapart key hkey).2 hk
  · have hlen := congrArg List.length he
    simp at hlen

/-- Two photos within one second. -/
theorem photos_stored_fails : ¬ ∀ (settings : StorageSettings) (lib : ImageLibrary) (σ₀ : MenuState)
    (calls : List PhotoCall), UniqueKeys σ₀.items → (∀ i ∈ σ₀.items, i.Unphotographed) →
      ∀ before after, calls = before ++ after → (σ₀.photoRun settings lib before).PhotosStored settings := by
  intro h
  have hstored := h assets copies twoMenus [uploadAt 1700000000, uploadAt 1700000000] twoMenus_fresh.ids
    twoMenus_unphotographed
  have hphotos : (twoMenus.photoRun assets copies [uploadAt 1700000000]).Photos assets :=
    MenuState.Photos.step copies (uploadAt 1700000000) ⟨twoMenus_fresh.ids, fun i hi => .inl (twoMenus_unphotographed i hi)⟩
  have hsafe := (hphotos.stored_step copies _ (hstored [_] [_] rfl)).mp (hstored [_, _] [] rfl)
  obtain ⟨i, hown, hu, -⟩ := uploadAt_item 1700000000
  refine hsafe ⟨3, photo, rfl, thumbKey 3 1700000000, List.mem_cons_self, ?_, by decide +kernel, rfl⟩
  have hdiscards := uploadAt_discards 1700000000 _ hown
  rw [hu] at hdiscards
  exact hdiscards ▸ List.mem_cons_self

end TwoMenus

end QOrder
