import QOrder.OfficeRows

/-! Two offices that have the same rows of a restaurant, and what the requests about its tables do
in both. -/

namespace QOrder

open KeyedTable

variable {lib : AdminLibrary} {user : TokenPayload} {draws : Draws} {o o' : Office} {R : Uuid}

/-- The two have the same rows of the restaurant, and what is drawn is new to both. -/
structure Office.Alike (user : TokenPayload) (draws : Draws) (o o' : Office) : Prop where
  lawful : o.Lawful
  lawful' : o'.Lawful
  fresh : o.Fresh draws
  fresh' : o'.Fresh draws
  rows : o'.select (· == user.restaurantId) = o.select (· == user.restaurantId)

/-- The same answer, and the same rows of the restaurant. -/
def SameFor {α : Type} (R : Uuid) (out out' : Except MenuError α × Office) : Prop :=
  out'.1 = out.1 ∧ out'.2.select (· == R) = out.2.select (· == R)

theorem SameFor.map {α β : Type} {out out' : Except MenuError α × Office} (h : SameFor R out out') (f : α → β) :
    SameFor R (out.map (Except.map f) id) (out'.map (Except.map f) id) :=
  ⟨congrArg (Except.map f) h.1, h.2⟩

section Tables

variable {row t : TableRecord}

/-- The row can be stored for the restaurant, whatever tables the others have. -/
structure Office.Admits (o : Office) (R : Uuid) (row : TableRecord) : Prop where
  own : ∀ t ∈ o.tables, key t = key row → t.restaurantId = R
  token : ∀ t ∈ o.tables, t.id ≠ row.id → t.qrToken ≠ row.qrToken

theorem Office.Fresh.admits (h : o.Fresh draws) (hid : row.id = draws.nextUuid) (hq : row.qrToken = draws.qrToken) :
    o.Admits R row where
  own := keyed_new h.table hid
  token t ht _ := hq ▸ h.token t ht

/-- A table is edited, and keeps its token or is given a new one. -/
theorem Office.Lawful.admits (h : o.Lawful) (hf : o.Fresh draws) (ht : t ∈ o.tables) (hr : t.restaurantId = R)
    (hid : row.id = t.id) (hq : row.qrToken = t.qrToken ∨ row.qrToken = draws.qrToken) : o.Admits R row where
  own := keyed_own h.tableIds ht hid.symm hr
  token x hx hne := by
    rcases hq with hq | hq
    · rw [hq]
      exact (Office.tableConflict_eq_false.mp (h.tables t ht) x hx (hid ▸ hne)).1
    · rw [hq]
      exact hf.token x hx

/-- Only the tables of the restaurant are in the way of such a row. -/
theorem Office.Admits.conflict (h : o.Admits R row) (hr : row.restaurantId = R) : o.tableConflict row =
    (o.tables.filter fun t => t.restaurantId == R).any fun t => t.id != row.id && t.tableNumber == row.tableNumber := by
  rw [Bool.eq_iff_iff, Office.tableConflict, List.any_eq_true, List.any_eq_true]
  simp only [List.mem_filter, Bool.and_eq_true, Bool.or_eq_true, bne_iff_ne, ne_eq, beq_iff_eq]
  constructor
  · rintro ⟨t, ht, hid, hq | ⟨hr', hn⟩⟩
    · exact absurd hq (h.token t ht hid)
    · exact ⟨t, ⟨ht, hr'.trans hr⟩, hid, hn⟩
  · rintro ⟨t, ⟨ht, hr'⟩, hid, hn⟩
    exact ⟨t, ht, hid, .inr ⟨hr'.trans hr.symm, hn⟩⟩

end Tables

namespace Office.Alike

variable (h : Office.Alike user draws o o')

include h

theorem tables : o'.tables.filter (fun t => t.restaurantId == user.restaurantId) =
    o.tables.filter fun t => t.restaurantId == user.restaurantId := congrArg Office.tables h.rows

theorem categories : o'.categories.filter (fun g => g.restaurantId == user.restaurantId) =
    o.categories.filter fun g => g.restaurantId == user.restaurantId := congrArg Office.categories h.rows

theorem items : o'.items.filter (fun i => i.restaurantId == user.restaurantId) =
    o.items.filter fun i => i.restaurantId == user.restaurantId := congrArg Office.items h.rows

theorem settings : o'.settings.filter (fun s => s.restaurantId == user.restaurantId) =
    o.settings.filter fun s => s.restaurantId == user.restaurantId := congrArg Office.settings h.rows

theorem users : o'.users.filter (fun u => u.restaurantId == user.restaurantId) =
    o.users.filter fun u => u.restaurantId == user.restaurantId := congrArg Office.users h.rows

theorem store (s s' : ObjectStore) : Office.Alike user draws { o with store := s } { o' with store := s' } :=
  ⟨{ h.lawful with }, { h.lawful' with }, { h.fresh with }, { h.fresh' with }, h.rows⟩

/-- Neither is changed, but for its objects. -/
theorem refused {α : Type} (answer : Except MenuError α) (s s' : ObjectStore) :
    SameFor user.restaurantId (answer, { o with store := s }) (answer, { o' with store := s' }) :=
  ⟨rfl, h.rows⟩

theorem unchanged {α : Type} (answer : Except MenuError α) : SameFor user.restaurantId (answer, o) (answer, o') :=
  h.refused answer o.store o'.store

section Tables

variable {row : TableRecord}

theorem ownTable (tableId : Uuid) : o'.ownTable user tableId = o.ownTable user tableId := by
  refine find_agree h.tables fun t ht => ?_
  simp only [Bool.and_eq_true, beq_iff_eq] at ht
  exact ht.2

theorem getRestaurantSlug : o'.getRestaurantSlug user = o.getRestaurantSlug user := by
  have hfind := find_agree (f := fun r : RestaurantRecord => r.id) (R := user.restaurantId)
    (congrArg Office.restaurants h.rows) (P := fun r => r.id == user.restaurantId) fun r hr => beq_iff_eq.mp hr
  exact congrArg (Option.map fun r => r.slug) hfind

theorem saveTable (hr : row.restaurantId = user.restaurantId) (ha : o.Admits user.restaurantId row)
    (ha' : o'.Admits user.restaurantId row) :
    SameFor user.restaurantId (o.saveTable draws row) (o'.saveTable draws row) := by
  have hconflict : o'.tableConflict row = o.tableConflict row := by
    rw [ha.conflict hr, ha'.conflict hr, h.tables]
  unfold Office.saveTable
  rw [hconflict]
  by_cases hsave : (!o.tableConflict row && draws.conditions.commits) = true
  · rw [if_pos hsave, if_pos hsave]
    have hrows := overlay_agree h.tables h.lawful.tableIds h.lawful'.tableIds hr ha.own ha'.own
    exact ⟨rfl, congrArg₂ (fun (s : Office) tables => { s with tables }) h.rows hrows⟩
  · rw [if_neg hsave, if_neg hsave]
    exact h.unchanged _

theorem saveWithQr (slug : String) (hr : row.restaurantId = user.restaurantId)
    (ha : ∀ imageUrl, o.Admits user.restaurantId { row with qrImageUrl := imageUrl })
    (ha' : ∀ imageUrl, o'.Admits user.restaurantId { row with qrImageUrl := imageUrl }) :
    SameFor user.restaurantId (o.saveWithQr lib draws slug row) (o'.saveWithQr lib draws slug row) := by
  have hurl : (uploadFile lib.storage draws.conditions o'.store (qrKey row.id)
      (lib.makeQr (buildQrUrl lib slug row.qrToken))).1 = (uploadFile lib.storage draws.conditions o.store (qrKey row.id)
        (lib.makeQr (buildQrUrl lib slug row.qrToken))).1 := by
    rw [ObjectStore.uploadFile_url, ObjectStore.uploadFile_url]
  unfold Office.saveWithQr
  revert hurl
  generalize uploadFile lib.storage draws.conditions o.store _ _ = out
  generalize uploadFile lib.storage draws.conditions o'.store _ _ = out'
  obtain ⟨imageUrl, store⟩ := out
  obtain ⟨imageUrl', store'⟩ := out'
  rintro rfl
  cases imageUrl' with
  | none => exact h.refused _ store store'
  | some imageUrl => exact (h.store store store').saveTable hr { ha _ with } { ha' _ with }

theorem createTable (body : TableCreate) :
    SameFor user.restaurantId (o.createTable lib user draws body) (o'.createTable lib user draws body) := by
  unfold Office.createTable
  rw [h.getRestaurantSlug]
  cases o.getRestaurantSlug user with
  | none => exact h.unchanged _
  | some slug =>
    let row (imageUrl : Option String) : TableRecord :=
      { id := draws.nextUuid, restaurantId := user.restaurantId, qrToken := draws.qrToken
        tableNumber := body.tableNumber, qrImageUrl := imageUrl }
    have ha (imageUrl : Option String) : o.Admits user.restaurantId (row imageUrl) := h.fresh.admits rfl rfl
    have ha' (imageUrl : Option String) : o'.Admits user.restaurantId (row imageUrl) := h.fresh'.admits rfl rfl
    have hconflict : o'.tableConflict (row none) = o.tableConflict (row none) := by
      rw [(ha none).conflict rfl, (ha' none).conflict rfl, h.tables]
    change SameFor _ (if o.tableConflict (row none) then _ else _) (if o'.tableConflict (row none) then _ else _)
    rw [hconflict]
    by_cases hc : o.tableConflict (row none) = true
    · rw [if_pos hc, if_pos hc]
      exact h.unchanged _
    · rw [if_neg hc, if_neg hc]
      exact h.saveWithQr slug rfl ha ha'

/-- A table of the restaurant is one of both. -/
theorem ownTable_mem {tableId : Uuid} {t : TableRecord} (hown : o.ownTable user tableId = some t) :
    (t ∈ o.tables ∧ t ∈ o'.tables) ∧ t.restaurantId = user.restaurantId := by
  have hmem := Office.ownTable_some hown
  have hmem' := Office.ownTable_some ((h.ownTable tableId).trans hown)
  exact ⟨⟨hmem.1, hmem'.1⟩, hmem.2.2⟩

theorem updateTable (tableId : Uuid) (body : TableUpdate) :
    SameFor user.restaurantId (o.updateTable user draws tableId body) (o'.updateTable user draws tableId body) := by
  unfold Office.updateTable
  rw [h.ownTable]
  cases hown : o.ownTable user tableId with
  | none => exact h.unchanged _
  | some t =>
    obtain ⟨⟨ht, ht'⟩, hr⟩ := h.ownTable_mem hown
    dsimp only
    cases hrow : body.apply t with
    | none => exact h.unchanged _
    | some row =>
      obtain ⟨hid, hr', hq⟩ := TableUpdate.apply_keeps hrow
      exact h.saveTable (hr'.trans hr) (h.lawful.admits h.fresh ht hr hid (.inl hq))
        (h.lawful'.admits h.fresh' ht' hr hid (.inl hq))

theorem regenerateQr (tableId : Uuid) :
    SameFor user.restaurantId (o.regenerateQr lib user draws tableId) (o'.regenerateQr lib user draws tableId) := by
  unfold Office.regenerateQr
  rw [h.ownTable, h.getRestaurantSlug]
  cases hown : o.ownTable user tableId with
  | none => exact h.unchanged _
  | some t =>
    obtain ⟨⟨ht, ht'⟩, hr⟩ := h.ownTable_mem hown
    dsimp only
    cases o.getRestaurantSlug user with
    | none => exact h.unchanged _
    | some slug =>
      exact h.saveWithQr slug hr (fun _ => h.lawful.admits h.fresh ht hr rfl (.inr rfl))
        fun _ => h.lawful'.admits h.fresh' ht' hr rfl (.inr rfl)

theorem listTables : o'.listTables lib user = o.listTables lib user := by
  unfold Office.listTables
  rw [h.tables]

theorem getQrImage (tableId : Uuid) : o'.getQrImage lib user tableId = o.getQrImage lib user tableId := by
  unfold Office.getQrImage
  rw [h.ownTable, h.getRestaurantSlug]

end Tables

end Office.Alike

end QOrder
