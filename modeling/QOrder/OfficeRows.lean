import QOrder.CustomerMenu
import QOrder.OfficeLaws
import QOrder.RestaurantRegions

/-! The rows of a restaurant among those of the office. A request of its administrators leaves
the rows of the others as they were. -/

namespace QOrder

open KeyedTable

/-- The rows of the restaurants that satisfy `P`, without the objects. -/
def Office.select (o : Office) (P : Uuid → Bool) : Office where
  restaurants := o.restaurants.filter fun r => P r.id
  settings := o.settings.filter fun s => P s.restaurantId
  tables := o.tables.filter fun t => P t.restaurantId
  categories := o.categories.filter fun g => P g.restaurantId
  items := o.items.filter fun i => P i.restaurantId
  users := o.users.filter fun u => P u.restaurantId

theorem Office.catalog_select (o : Office) (P : Uuid → Bool) : o.catalog.select P = (o.select P).catalog := by
  have hr := List.filter_map (f := fun r : RestaurantRecord => (⟨r.id, r.isActive⟩ : Restaurant))
    (p := fun r => P r.id) (l := o.restaurants)
  have hs := List.filter_map (f := SettingsRecord.toRestaurantSettings) (p := fun s => P s.restaurantId)
    (l := o.settings)
  have ht := List.filter_map (f := TableRecord.toTable) (p := fun t => P t.restaurantId) (l := o.tables)
  have hi := List.filter_map (f := MenuItemRow.toMenuItem) (p := fun i => P i.restaurantId) (l := o.items)
  exact congr (congr (congr (congrArg Catalog.mk hr) hs) ht) hi

section Rows

variable {V : Type} {rows rows' : List V} {f : V → Uuid} {R : Uuid} {P : V → Bool}

theorem any_agree (h : rows'.filter (fun r => f r == R) = rows.filter fun r => f r == R)
    (hP : ∀ r, P r = true → f r = R) : rows'.any P = rows.any P := by
  rw [← List.isSome_find?, find_agree h hP, List.isSome_find?]

theorem filter_agree (h : rows'.filter (fun r => f r == R) = rows.filter fun r => f r == R) (P : V → Bool) :
    rows'.filter (fun r => f r == R && P r) = rows.filter fun r => f r == R && P r := by
  have own (l : List V) : (l.filter fun r => f r == R).filter P = l.filter fun r => f r == R && P r := by
    rw [List.filter_filter]
    exact List.filter_congr fun r _ => Bool.and_comm ..
  rw [← own rows', h, own rows]

variable [Keyed V Uuid] {row t : V}

/-- Whatever has the key of a stored row is that row. -/
theorem keyed_own (hk : UniqueKeys rows) (ht : t ∈ rows) (hid : key t = key row) {p : V → Prop} (hp : p t) :
    ∀ r ∈ rows, key r = key row → p r := by
  intro r hr he
  rw [eq_of_key_eq hk hr ht (he.trans hid.symm)]
  exact hp

theorem keyed_new {k : Uuid} (hn : lookup k rows = none) (hid : key row = k) {p : V → Prop} :
    ∀ r ∈ rows, key r = key row → p r :=
  fun r hr he => absurd (he.trans hid) (lookup_eq_none.mp hn r hr)

/-- A row of the restaurant is stored, and others are selected. -/
theorem filter_overlay_rest (p : Uuid → Bool) (hR : p R = false) (hrow : f row = R)
    (hold : ∀ r ∈ rows, key r = key row → f r = R) :
    (overlay rows [row]).filter (fun r => p (f r)) = rows.filter fun r => p (f r) := by
  refine filter_overlay (fun r _ _ => rfl) (fun r hr hl => ?_) fun w hw => ?_
  · have hid : key r = key row := by
      by_contra hne
      exact hl (by simp [lookup_singleton, Ne.symm hne])
    rw [hold r hr hid, hR]
  · rw [List.mem_singleton.mp hw, hrow, hR]

/-- A row of a selection is stored there. -/
theorem filter_overlay_own (hk : UniqueKeys rows) (hrow : P row = true)
    (hold : ∀ r ∈ rows, key r = key row → P r = true) :
    (overlay rows [row]).filter P = overlay (rows.filter P) [row] := by
  by_cases hn : lookup (key row) rows = none
  · have hn' : lookup (key row) (rows.filter P) = none :=
      lookup_eq_none.mpr fun r hr => lookup_eq_none.mp hn r (List.mem_of_mem_filter hr)
    have hone : ∀ w ∈ [row], lookup (key w) rows = none := fun w hw => List.mem_singleton.mp hw ▸ hn
    have hone' : ∀ w ∈ [row], lookup (key w) (rows.filter P) = none := fun w hw => List.mem_singleton.mp hw ▸ hn'
    rw [overlay_new hone, overlay_new hone', List.filter_append]
    simp [hrow]
  · obtain ⟨r, hl⟩ := Option.ne_none_iff_exists'.mp hn
    have hid : key r = key row := key_of_lookup hl
    have hm : r ∈ rows.filter P := List.mem_filter.mpr ⟨mem_of_lookup hl, hold r (mem_of_lookup hl) hid⟩
    have hk' : UniqueKeys (rows.filter P) := hk.sublist (List.filter_sublist.map key)
    rw [overlay_row (hid ▸ hl) hid.symm, overlay_row (lookup_of_mem hk' hm) hid.symm, List.filter_map]
    refine congrArg (List.map _) (List.filter_congr fun x hx => ?_)
    by_cases hxr : key x = key r
    · simp [hxr, hrow, hold x hx (hxr.trans hid)]
    · simp [hxr]

/-- The same row is stored in tables that have the same rows of the restaurant. -/
theorem overlay_agree (h : rows'.filter (fun r => f r == R) = rows.filter fun r => f r == R)
    (hk : UniqueKeys rows) (hk' : UniqueKeys rows') (hrow : f row = R)
    (hold : ∀ r ∈ rows, key r = key row → f r = R) (hold' : ∀ r ∈ rows', key r = key row → f r = R) :
    (overlay rows' [row]).filter (fun r => f r == R) = (overlay rows [row]).filter fun r => f r == R := by
  have stored {l : List V} (hk : UniqueKeys l) (hold : ∀ r ∈ l, key r = key row → f r = R) :
      (overlay l [row]).filter (fun r => f r == R) = overlay (l.filter fun r => f r == R) [row] :=
    filter_overlay_own hk (beq_iff_eq.mpr hrow) fun r hr he => beq_iff_eq.mpr (hold r hr he)
  rw [stored hk hold, stored hk' hold', h]

end Rows

section Others

variable {user : TokenPayload} {draws : Draws} {o o' : Office} {l : List (Uuid × String)} {P : Uuid → Bool}

/-- A request changes no row of a restaurant other than that of its token. -/
theorem Office.Wrote.rest (hw : Office.Wrote user draws o l o') (h : o.Lawful) (hf : o.Fresh draws)
    (hP : P user.restaurantId = false) : o'.select P = o.select P := by
  have htables {row : TableRecord} (hr : row.restaurantId = user.restaurantId)
      (hold : ∀ t ∈ o.tables, t.id = row.id → t.restaurantId = user.restaurantId) (store : ObjectStore) :
      ({ o with tables := overlay o.tables [row], store } : Office).select P = o.select P := by
    have he := filter_overlay_rest (f := fun t : TableRecord => t.restaurantId) P hP hr hold
    exact congrArg (fun tables => ({ o.select P with tables } : Office)) he
  cases hw with
  | nothing store => rfl
  | tableAdded row store hr hid hq hc => exact htables hr (keyed_new hf.table hid) store
  | tableEdited t row ht hr hid hr' hq hc =>
    exact htables (hr'.trans hr) (keyed_own h.tableIds ht hid.symm hr) o.store
  | tableRenewed t imageUrl store ht hr hc =>
    let row : TableRecord := { t with qrToken := draws.qrToken, qrImageUrl := imageUrl }
    have hr' : row.restaurantId = user.restaurantId := hr
    exact htables hr' (keyed_own h.tableIds ht rfl hr) store
  | category row hr hfits hid =>
    have hold : ∀ g ∈ o.categories, key g = key row → g.restaurantId = user.restaurantId := by
      rcases hid with hid | ⟨g, hg, hid, hr'⟩
      · exact keyed_new hf.category hid
      · exact keyed_own h.categoryIds hg hid hr'
    have he := filter_overlay_rest (f := fun g : CategoryRecord => g.restaurantId) P hP hr hold
    exact congrArg (fun categories => ({ o.select P with categories } : Office)) he
  | item row store hr hfits hid =>
    have hold : ∀ i ∈ o.items, key i = key row → i.restaurantId = user.restaurantId := by
      rcases hid with hid | ⟨i, hi, hid, hr'⟩
      · exact keyed_new hf.item hid
      · exact keyed_own h.itemIds hi hid hr'
    have he := filter_overlay_rest (f := MenuItemRow.restaurantId) P hP hr hold
    exact congrArg (fun items => ({ o.select P with items } : Office)) he
  | settings row hr hfits hid =>
    have hold : ∀ s ∈ o.settings, key s = key row → s.restaurantId = user.restaurantId :=
      fun s _ hk => Eq.trans hk hr
    have he := filter_overlay_rest (f := fun s : SettingsRecord => s.restaurantId) P hP hr hold
    exact congrArg (fun settings => ({ o.select P with settings } : Office)) he
  | staff row hr hid =>
    obtain ⟨u, hu, hid, hr'⟩ := hid
    have he := filter_overlay_rest (f := UserRecord.restaurantId) P hP hr (keyed_own h.userIds hu hid hr')
    exact congrArg (fun users => ({ o.select P with users } : Office)) he

end Others

end QOrder
