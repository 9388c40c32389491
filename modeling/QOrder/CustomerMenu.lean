import Mathlib.Data.List.Perm.Basic
import Mathlib.Logic.Function.Basic
import QOrder.House
import QOrder.TokenAnswers

/-! The page behind a token: the restaurant, the table and the menu, whose dishes are regrouped by
category. What it offers is compared with the lines that an order is taken with. -/

namespace Grouping

variable {V K : Type} [DecidableEq K] (f : V → K) (l : List V)

/-- The dictionary, filled element by element; a key without an entry has the empty list. -/
def groupBy : K → List V :=
  l.foldl (fun groups v => Function.update groups (f v) (groups (f v) ++ [v])) fun _ => []

def regroup (keys : List K) : List V := keys.flatMap (groupBy f l)

variable {f l}

theorem foldl_groups (groups : K → List V) (k : K) :
    l.foldl (fun groups v => Function.update groups (f v) (groups (f v) ++ [v])) groups k =
      groups k ++ l.filter fun v => f v = k := by
  induction l generalizing groups with
  | nil => simp
  | cons v l ih =>
    rw [List.foldl_cons, ih]
    by_cases h : f v = k
    · subst h
      simp
    · simp [h, Function.update_of_ne (Ne.symm h)]

theorem groupBy_apply (k : K) : groupBy f l k = l.filter fun v => f v = k := by
  rw [groupBy, foldl_groups, List.nil_append]

/-- The elements whose key is chosen, each as often as in the list. -/
theorem regroup_perm {keys : List K} (h : keys.Nodup) : (regroup f l keys).Perm (l.filter fun v => f v ∈ keys) := by
  induction keys with
  | nil => simp [regroup]
  | cons k keys ih =>
    obtain ⟨hk, hkeys⟩ := List.nodup_cons.mp h
    have hhead : (l.filter fun v => f v ∈ k :: keys).filter (fun v => f v = k) = l.filter fun v => f v = k := by
      rw [List.filter_filter]
      refine List.filter_congr fun v _ => ?_
      by_cases hv : f v = k <;> simp [hv]
    have htail : (l.filter fun v => f v ∈ k :: keys).filter (fun v => !decide (f v = k)) =
        l.filter fun v => f v ∈ keys := by
      rw [List.filter_filter]
      refine List.filter_congr fun v _ => ?_
      by_cases hv : f v = k
      · subst hv
        simp [hk]
      · simp [hv]
    have hsplit := List.filter_append_perm (fun v => decide (f v = k)) (l.filter fun v => f v ∈ k :: keys)
    rw [hhead, htail] at hsplit
    rw [regroup, List.flatMap_cons, groupBy_apply]
    exact ((ih hkeys).append_left _).trans hsplit

end Grouping

namespace QOrder

open KeyedTable Concurrency

structure CustomerMenuItemResponse where
  id : Uuid
  name : String
  description : Option String
  price : Money
  prepTimeMinutes : Nat
  isAvailable : Bool
  imageUrl : Option String
  imageLargeUrl : Option String
  isFeatured : Bool
  categoryId : Option Uuid
  deriving DecidableEq, Repr

structure CustomerMenuCategoryResponse where
  id : Uuid
  name : String
  sortOrder : Nat
  items : List CustomerMenuItemResponse
  deriving DecidableEq, Repr

structure QRRestaurantInfo where
  name : String
  slug : String
  currency : String
  logoUrl : Option String
  deriving DecidableEq, Repr

structure QRTableInfo where
  id : Uuid
  tableNumber : String
  deriving DecidableEq, Repr

structure QRResolveResponse where
  restaurant : QRRestaurantInfo
  table : QRTableInfo
  menu : List CustomerMenuCategoryResponse
  deriving DecidableEq, Repr

def CustomerMenuItemResponse.modelValidate (item : MenuItemRow) : CustomerMenuItemResponse where
  id := item.id
  name := item.name
  description := item.description
  price := item.price
  prepTimeMinutes := item.prepTimeMinutes
  isAvailable := item.isAvailable
  imageUrl := item.imageUrl
  imageLargeUrl := item.imageLargeUrl
  isFeatured := item.isFeatured
  categoryId := item.categoryId

namespace Office

variable (o : Office)

def activeCategories (restaurantId : Uuid) : List CategoryRecord :=
  (o.categories.filter fun g => g.restaurantId == restaurantId && g.isActive).mergeSort fun a b =>
    decide (a.sortOrder ≤ b.sortOrder)

def activeItems (restaurantId : Uuid) : List MenuItemRow :=
  (o.items.filter fun i => i.restaurantId == restaurantId && i.isActive).mergeSort fun a b =>
    decide (a.sortOrder ≤ b.sortOrder)

/-- Steps 3 to 6 of `resolve_qr`. -/
def customerMenu (restaurantId : Uuid) : List CustomerMenuCategoryResponse :=
  let itemsByCategory := Grouping.groupBy MenuItemRow.categoryId (o.activeItems restaurantId)
  (o.activeCategories restaurantId).map fun cat =>
    { id := cat.id, name := cat.name, sortOrder := cat.sortOrder
      items := (itemsByCategory (some cat.id)).map .modelValidate }

def resolveQr (qrToken : String) : Except Exn QRResolveResponse :=
  match o.tables.find? fun t => t.qrToken == qrToken && t.isActive with
  | none => .error invalidToken
  | some table =>
    match o.restaurants.find? fun r => r.id == table.restaurantId && r.isActive with
    | none => .error inactiveRestaurant
    | some restaurant =>
      let settings := o.settings.find? fun s => s.restaurantId == restaurant.id
      .ok
        { restaurant :=
            { name := restaurant.name, slug := restaurant.slug
              currency := (settings.map SettingsRecord.currency).getD "VND"
              logoUrl := settings.bind SettingsRecord.logoUrl }
          table := { id := table.id, tableNumber := table.tableNumber }
          menu := o.customerMenu restaurant.id }

/-- The category, where one is given, is an active one of the restaurant. -/
def Shelves (restaurantId : Uuid) (categoryId : Option Uuid) : Prop :=
  ∃ g ∈ o.categories, categoryId = some g.id ∧ g.restaurantId = restaurantId ∧ g.isActive = true

end Office

/-- The dishes of a page. -/
def dishesOf (menu : List CustomerMenuCategoryResponse) : List CustomerMenuItemResponse :=
  menu.flatMap CustomerMenuCategoryResponse.items

def QRResolveResponse.Offers (page : QRResolveResponse) (menuItemId : Uuid) : Prop :=
  ∃ item ∈ dishesOf page.menu, item.id = menuItemId ∧ item.isAvailable = true

section Resolving

variable {o : Office} {qrToken : String} {table : Table} {restaurant : Restaurant} {e : Exn}

theorem Office.activeTable_eq : o.catalog.activeTable qrToken =
    (o.tables.find? fun t => t.qrToken == qrToken && t.isActive).map TableRecord.toTable := by
  rw [Catalog.activeTable, Office.catalog, List.find?_map]
  rfl

theorem Office.activeRestaurant_eq (restaurantId : Uuid) :
    (o.catalog.restaurants.find? fun r => r.id == restaurantId && r.isActive) =
      (o.restaurants.find? fun r => r.id == restaurantId && r.isActive).map fun r => ⟨r.id, r.isActive⟩ := by
  rw [Office.catalog, List.find?_map]
  rfl

/-- The page and the order resolve a token alike. -/
theorem Office.resolveQr_error (h : o.catalog.resolve qrToken = .error e) : o.resolveQr qrToken = .error e := by
  rw [Catalog.resolve, activeTable_eq] at h
  unfold resolveQr
  cases ht : o.tables.find? fun t => t.qrToken == qrToken && t.isActive with
  | none =>
    rw [ht] at h
    cases h
    rfl
  | some t =>
    rw [ht] at h
    dsimp only [Option.map_some] at h ⊢
    rw [activeRestaurant_eq] at h
    cases hr : o.restaurants.find? fun r => r.id == t.restaurantId && r.isActive with
    | none =>
      rw [hr] at h
      cases h
      rfl
    | some r =>
      rw [hr] at h
      cases h

theorem Office.resolveQr_ok (h : o.catalog.resolve qrToken = .ok (table, restaurant)) :
    ∃ page, o.resolveQr qrToken = .ok page ∧ page.menu = o.customerMenu restaurant.id := by
  obtain ⟨ht, hr⟩ := Catalog.resolve_ok_iff.mp h
  rw [activeTable_eq] at ht
  rw [activeRestaurant_eq] at hr
  obtain ⟨t, hfind, rfl⟩ := Option.map_eq_some_iff.mp ht
  obtain ⟨r, hactive, rfl⟩ := Option.map_eq_some_iff.mp hr
  unfold resolveQr
  rw [hfind]
  dsimp only
  rw [hactive]
  exact ⟨_, rfl, rfl⟩

end Resolving

section Menus

variable {o : Office} {restaurantId : Uuid} {i : MenuItemRow}

theorem Office.mem_activeItems : i ∈ o.activeItems restaurantId ↔
    i ∈ o.items ∧ i.restaurantId = restaurantId ∧ i.isActive = true := by
  simp [activeItems, (List.mergeSort_perm _ _).mem_iff]

/-- The keys of the dictionary that the menu asks for. -/
theorem Office.mem_shelves : i.categoryId ∈ (o.activeCategories restaurantId).map (fun g => some g.id) ↔
    o.Shelves restaurantId i.categoryId := by
  rw [List.mem_map]
  constructor
  · rintro ⟨g, hg, hid⟩
    have hm := (List.mergeSort_perm _ _).mem_iff.mp hg
    obtain ⟨hg, hp⟩ := List.mem_filter.mp hm
    simp only [Bool.and_eq_true, beq_iff_eq] at hp
    exact ⟨g, hg, hid.symm, hp.1, hp.2⟩
  · rintro ⟨g, hg, hid, hr, ha⟩
    refine ⟨g, (List.mergeSort_perm _ _).mem_iff.mpr ?_, hid.symm⟩
    exact List.mem_filter.mpr ⟨hg, by simp [hr, ha]⟩

theorem Office.dishesOf_perm (h : o.Lawful) (restaurantId : Uuid) : (dishesOf (o.customerMenu restaurantId)).Perm
    (((o.activeItems restaurantId).filter fun i =>
      i.categoryId ∈ (o.activeCategories restaurantId).map fun g => some g.id).map .modelValidate) := by
  let keys := (o.activeCategories restaurantId).map fun g => some g.id
  have hkeys : keys.Nodup := by
    have hids : ((o.activeCategories restaurantId).map key).Nodup := by
      have hperm : (o.activeCategories restaurantId).Perm
          (o.categories.filter fun g => g.restaurantId == restaurantId && g.isActive) := List.mergeSort_perm ..
      rw [(hperm.map key).nodup_iff]
      exact h.categoryIds.sublist (List.filter_sublist.map key)
    have hsome := hids.map (Option.some_injective _)
    rwa [List.map_map] at hsome
  have hregroup : dishesOf (o.customerMenu restaurantId) =
      (Grouping.regroup MenuItemRow.categoryId (o.activeItems restaurantId) keys).map .modelValidate := by
    simp [dishesOf, customerMenu, Grouping.regroup, keys, List.flatMap_map, List.map_flatMap]
  rw [hregroup]
  convert (Grouping.regroup_perm hkeys).map CustomerMenuItemResponse.modelValidate

theorem Office.mem_dishesOf (h : o.Lawful) {dish : CustomerMenuItemResponse} :
    dish ∈ dishesOf (o.customerMenu restaurantId) ↔ ∃ i ∈ o.activeItems restaurantId,
      o.Shelves restaurantId i.categoryId ∧ CustomerMenuItemResponse.modelValidate i = dish := by
  rw [(dishesOf_perm h restaurantId).mem_iff, List.mem_map]
  constructor
  · rintro ⟨i, hi, rfl⟩
    obtain ⟨hm, hp⟩ := List.mem_filter.mp hi
    exact ⟨i, hm, mem_shelves.mp (of_decide_eq_true hp), rfl⟩
  · rintro ⟨i, hi, hs, rfl⟩
    exact ⟨i, List.mem_filter.mpr ⟨hi, decide_eq_true (mem_shelves.mpr hs)⟩, rfl⟩

/-- No dish is on the page twice. -/
theorem Office.dishesOf_nodup (h : o.Lawful) :
    ((dishesOf (o.customerMenu restaurantId)).map CustomerMenuItemResponse.id).Nodup := by
  have hperm : (o.activeItems restaurantId).Perm
      (o.items.filter fun i => i.restaurantId == restaurantId && i.isActive) := List.mergeSort_perm ..
  have hactive : ((o.activeItems restaurantId).map key).Nodup := by
    rw [(hperm.map key).nodup_iff]
    exact h.itemIds.sublist (List.filter_sublist.map key)
  have hdishes := dishesOf_perm h restaurantId
  rw [(hdishes.map CustomerMenuItemResponse.id).nodup_iff, List.map_map]
  exact hactive.sublist (List.filter_sublist.map key)

/-- A dish is listed once or never. -/
theorem Office.count_dishesOf (h : o.Lawful) (hi : i ∈ o.activeItems restaurantId) :
    ((dishesOf (o.customerMenu restaurantId)).map CustomerMenuItemResponse.id).count i.id = 1 ↔
      o.Shelves restaurantId i.categoryId := by
  have hmem : i.id ∈ (dishesOf (o.customerMenu restaurantId)).map CustomerMenuItemResponse.id ↔
      o.Shelves restaurantId i.categoryId := by
    rw [List.mem_map]
    constructor
    · rintro ⟨dish, hdish, hid⟩
      obtain ⟨i', hi', hs, rfl⟩ := (mem_dishesOf h).mp hdish
      rw [← eq_of_key_eq h.itemIds (mem_activeItems.mp hi').1 (mem_activeItems.mp hi).1 hid]
      exact hs
    · intro hs
      exact ⟨.modelValidate i, (mem_dishesOf h).mpr ⟨i, hi, hs, rfl⟩, rfl⟩
  rw [← hmem]
  constructor
  · intro hone
    apply List.count_pos_iff.mp
    omega
  · exact List.count_eq_one_of_mem (dishesOf_nodup h)

theorem Office.sells_iff {menuItemId : Uuid} : o.catalog.Sells restaurantId menuItemId ↔
    ∃ i ∈ o.activeItems restaurantId, i.id = menuItemId ∧ i.isAvailable = true := by
  constructor
  · rintro ⟨m, hm, hid, hr, hactive, ha⟩
    obtain ⟨i, hi, rfl⟩ := List.mem_map.mp hm
    exact ⟨i, mem_activeItems.mpr ⟨hi, hr, hactive⟩, hid, ha⟩
  · rintro ⟨i, hi, hid, ha⟩
    obtain ⟨hm, hr, hactive⟩ := mem_activeItems.mp hi
    exact ⟨i.toMenuItem, List.mem_map_of_mem hm, hid, hr, hactive, ha⟩

/-- A page offers the dishes that are sold and shelved. -/
theorem Office.offers_iff (h : o.Lawful) {page : QRResolveResponse} (hm : page.menu = o.customerMenu restaurantId)
    {menuItemId : Uuid} : page.Offers menuItemId ↔ ∃ i ∈ o.activeItems restaurantId,
      i.id = menuItemId ∧ i.isAvailable = true ∧ o.Shelves restaurantId i.categoryId := by
  rw [QRResolveResponse.Offers, hm]
  constructor
  · rintro ⟨dish, hdish, hid, ha⟩
    obtain ⟨i, hi, hs, rfl⟩ := (mem_dishesOf h).mp hdish
    exact ⟨i, hi, hid, ha, hs⟩
  · rintro ⟨i, hi, hid, ha, hs⟩
    exact ⟨.modelValidate i, (mem_dishesOf h).mpr ⟨i, hi, hs, rfl⟩, hid, ha⟩

end Menus

section Ordering

variable {n : Nat} {owner : Uuid → Uuid} {lib : AdminLibrary} {P : Premises owner} {req : Fin n → Request}
  {h : House n} {qrToken : String} {table : Table} {restaurant : Restaurant}

/-- No line of the cart is refused. -/
def Takes (answer : Except Exn Response) : Prop := ∀ detail, answer ≠ .error (.http 400 detail)

theorem Request.takes_createOrder {c : Catalog} {d : Data} (hk : (c.menuItems.map MenuItem.id).Nodup)
    (hd : d.Ok owner) (hr : c.resolve qrToken = .ok (table, restaurant)) (w : Moment) (body : CreateOrderRequest) :
    Takes ((Request.createOrder qrToken body).response w c d) ↔
      ∀ line ∈ body.items, c.Sells restaurant.id line.menuItemId := by
  obtain ⟨session, s₁, -, hends⟩ := Solo.createOrder_ends (s := w.solo c d) rfl hd hr body
  rw [Request.createOrder_response]
  generalize ((w.solo c d).run (Customer.createOrder qrToken body)).1 = answer at hends
  cases hends with
  | refused line hl e he =>
    obtain ⟨detail, rfl⟩ := Catalog.accept_error he
    constructor
    · intro ht
      exact absurd rfl (ht detail)
    · intro hall
      obtain ⟨m, hm⟩ := (Catalog.accept_iff hk).mpr (hall line hl)
      have he' : c.accept restaurant.id line = .error (.http 400 detail) := he
      rw [hm] at he'
      cases he'
  | overflow ha hq =>
    refine ⟨fun _ line hl => (Catalog.accept_iff hk).mp (ha line hl), fun _ detail he => ?_⟩
    cases he
  | placed ha hq response hs =>
    refine ⟨fun _ line hl => (Catalog.accept_iff hk).mp (ha line hl), fun _ detail he => ?_⟩
    cases he

/-- A line is taken exactly where the page offers its dish, and the page lists every active dish once. -/
structure Office.Agrees (o : Office) (restaurantId : Uuid) (page : QRResolveResponse)
    (answer : CreateOrderRequest → Except Exn Response) : Prop where
  taken : ∀ body, Takes (answer body) ↔ ∀ line ∈ body.items, page.Offers line.menuItemId
  listed : ∀ i ∈ o.items, i.restaurantId = restaurantId → i.isActive = true →
    ((dishesOf page.menu).map CustomerMenuItemResponse.id).count i.id = 1

theorem Office.agrees_iff {o : Office} {restaurantId : Uuid} {page : QRResolveResponse} (hl : o.Lawful)
    (hm : page.menu = o.customerMenu restaurantId) {answer : CreateOrderRequest → Except Exn Response}
    (ha : ∀ body, Takes (answer body) ↔ ∀ line ∈ body.items, o.catalog.Sells restaurantId line.menuItemId) :
    o.Agrees restaurantId page answer ↔
      ∀ i ∈ o.items, i.restaurantId = restaurantId → i.isActive = true → o.Shelves restaurantId i.categoryId := by
  have hcount {i : MenuItemRow} (hi : i ∈ o.items) (hr : i.restaurantId = restaurantId) (hactive : i.isActive = true) :
      ((dishesOf page.menu).map CustomerMenuItemResponse.id).count i.id = 1 ↔ o.Shelves restaurantId i.categoryId := by
    rw [hm]
    exact count_dishesOf hl (mem_activeItems.mpr ⟨hi, hr, hactive⟩)
  constructor
  · intro h i hi hr hactive
    exact (hcount hi hr hactive).mp (h.listed i hi hr hactive)
  · intro h
    refine ⟨fun body => (ha body).trans ?_, fun i hi hr hactive => (hcount hi hr hactive).mpr (h i hi hr hactive)⟩
    refine forall_congr' fun line => forall_congr' fun _ => ?_
    rw [sells_iff, offers_iff hl hm]
    constructor
    · rintro ⟨i, hi, hid, havailable⟩
      obtain ⟨hmem, hr, hactive⟩ := mem_activeItems.mp hi
      exact ⟨i, hi, hid, havailable, h i hmem hr hactive⟩
    · rintro ⟨i, hi, hid, havailable, -⟩
      exact ⟨i, hi, hid, havailable⟩

/-- The page and the orders agree exactly where every active dish is in an active category of the
restaurant. -/
theorem menu_orders (hr : P.Reaches lib req h)
    (hres : h.office.catalog.resolve qrToken = .ok (table, restaurant)) (w : Moment) :
    ∃ page, h.office.resolveQr qrToken = .ok page ∧
      (h.office.Agrees restaurant.id page (fun body =>
          (Request.createOrder qrToken body).response w h.clients.state.catalog h.clients.state.data) ↔
        ∀ i ∈ h.office.items, i.restaurantId = restaurant.id → i.isActive = true →
          ∃ g ∈ h.office.categories, i.categoryId = some g.id ∧ g.restaurantId = restaurant.id ∧
            g.isActive = true) := by
  obtain ⟨page, hpage, hmenu⟩ := Office.resolveQr_ok hres
  have hlawful := hr.kept.lawful
  refine ⟨page, hpage, Office.agrees_iff hlawful hmenu fun body => ?_⟩
  rw [hr.kept.synced]
  exact Request.takes_createOrder hlawful.dishIds hr.clients.inv.ok hres w body

end Ordering

section Cafe

/-- The café agrees with its page: its one dish is in its one category. -/
theorem menu_orders_cafe : ∃ page, cafeOffice.resolveQr "ban-1" = .ok page ∧
    cafeOffice.Agrees 1 page fun body => (Request.createOrder "ban-1" body).response cafe.moment cafe.catalog cafe.data := by
  have hr : cafePremises.Reaches cafeLibrary (fun _ : Fin 1 => cafeOrder) (cafePremises.house fun _ => cafeOrder) :=
    .refl
  have hres : cafeOffice.catalog.resolve "ban-1" = .ok (⟨2, 1, "ban-1", true⟩, ⟨1, true⟩) := rfl
  obtain ⟨page, hpage, hagrees⟩ := menu_orders hr hres cafe.moment
  refine ⟨page, hpage, hagrees.mpr ?_⟩
  change ∀ i ∈ cafeOffice.items, _
  decide

/-- A dish without a category is created. -/
def looseDish : AdminRequest := .menu (.createMenuItem { name := "Trà đá", price := 5000, prepTimeMinutes := 0 })

theorem menu_orders_fails : ¬ ∀ (P : Premises fun _ => 1) (lib : AdminLibrary) (h : House 1) (qrToken : String)
    (table : Table) (restaurant : Restaurant) (page : QRResolveResponse) (w : Moment),
    P.Reaches lib (fun _ => cafeOrder) h → h.office.catalog.resolve qrToken = .ok (table, restaurant) →
    h.office.resolveQr qrToken = .ok page → h.office.Agrees restaurant.id page fun body =>
      (Request.createOrder qrToken body).response w h.clients.state.catalog h.clients.state.data := by
  intro hall
  let h : House 1 := (cafePremises.house fun _ => cafeOrder).serveAdmin cafeLibrary cafeStaff cafeDraws looseDish
  have howned : (looseDish.handle cafeLibrary cafeStaff cafeDraws cafeOffice).2.catalog.Owned fun _ => 1 := by
    unfold Catalog.Owned
    decide +kernel
  have hr : cafePremises.Reaches cafeLibrary (fun _ : Fin 1 => cafeOrder) h :=
    .single (.admin cafeStaff cafeDraws looseDish cafeDraws_fresh (by decide) howned)
  have hres : h.office.catalog.resolve "ban-1" = .ok (⟨2, 1, "ban-1", true⟩, ⟨1, true⟩) := rfl
  obtain ⟨page, hpage, hmenu⟩ := Office.resolveQr_ok hres
  have hagrees := hall cafePremises cafeLibrary h "ban-1" _ _ page cafe.moment hr hres hpage
  obtain ⟨i, hi, hrestaurant, hactive, hloose⟩ :
      ∃ i ∈ h.office.items, i.restaurantId = 1 ∧ i.isActive = true ∧ i.categoryId = none := by
    decide +kernel
  have hone := hagrees.listed i hi hrestaurant hactive
  rw [hmenu] at hone
  have hmem := Office.mem_activeItems.mpr ⟨hi, hrestaurant, hactive⟩
  obtain ⟨g, -, hcategory, -⟩ := (Office.count_dishesOf hr.kept.lawful hmem).mp hone
  rw [hloose] at hcategory
  cases hcategory

end Cafe

end QOrder
