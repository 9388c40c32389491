import QOrder.BodyChecks

/-! Which bodies end in an exception of the database. In every reachable state a handler succeeds
or raises an `HTTPException` exactly where the columns hold what its body sets. -/

namespace QOrder

open KeyedTable Concurrency MenuItemUpdate

section Settled

variable {α β : Type}

theorem settled_ok (a : α) : Settled (.ok a) := .inl ⟨a, rfl⟩

theorem settled_http (statusCode : Nat) (detail : String) : Settled (.error (.http statusCode detail) : Except MenuError α) :=
  .inr ⟨statusCode, detail, rfl⟩

theorem not_settled_database : ¬ Settled (.error .database : Except MenuError α) := by
  rintro (⟨a, h⟩ | ⟨statusCode, detail, h⟩) <;> cases h

theorem settled_map {f : α → β} {answer : Except MenuError α} : Settled (answer.map f) ↔ Settled answer := by
  cases answer with
  | ok a => exact ⟨fun _ => settled_ok a, fun _ => settled_ok _⟩
  | error e =>
    constructor
    · rintro (⟨a, h⟩ | ⟨statusCode, detail, h⟩)
      · cases h
      · cases h
        exact settled_http statusCode detail
    · rintro (⟨a, h⟩ | ⟨statusCode, detail, h⟩)
      · cases h
      · cases h
        exact settled_http statusCode detail

/-- A flush that raises exactly where a check fails. -/
theorem settled_if {b : Bool} {a : α} {o o' : Office} : Settled (if b then (Except.ok a, o) else (.error .database, o')).1 ↔
    b = true := by
  cases b with
  | true => simp [settled_ok]
  | false => simp [not_settled_database]

end Settled

section Handlers

variable {lib : AdminLibrary} {user : TokenPayload} {draws : Draws} {o : Office}

theorem Office.settled_saveTable (hup : draws.conditions.Up) {row : TableRecord} :
    Settled (o.saveTable draws row).1 ↔ o.tableConflict row = false := by
  rw [saveTable, settled_if, hup.commits, Bool.and_true, Bool.not_eq_true']

theorem Office.settled_saveWithQr (hup : draws.conditions.Up) {slug : String} {row : TableRecord} :
    Settled (o.saveWithQr lib draws slug row).1 ↔ o.tableConflict row = false := by
  have hurl : (uploadFile lib.storage draws.conditions o.store (qrKey row.id)
      (lib.makeQr (buildQrUrl lib slug row.qrToken))).1 = some (getPublicUrl lib.storage (qrKey row.id)) := by
    rw [ObjectStore.uploadFile_url, if_pos (hup.stores _)]
  unfold saveWithQr
  generalize uploadFile lib.storage draws.conditions o.store (qrKey row.id)
    (lib.makeQr (buildQrUrl lib slug row.qrToken)) = out at hurl
  obtain ⟨imageUrl, store⟩ := out
  obtain rfl : imageUrl = _ := hurl
  exact settled_saveTable hup

theorem Office.settled_createTable (hup : draws.conditions.Up) (hf : o.Fresh draws) (body : TableCreate) :
    Settled (o.createTable lib user draws body).1 ↔ ((∃ r ∈ o.restaurants, r.id = user.restaurantId) →
      ∀ t ∈ o.tables, t.restaurantId = user.restaurantId → t.tableNumber ≠ body.tableNumber) := by
  let row : TableRecord :=
    { id := draws.nextUuid, restaurantId := user.restaurantId, qrToken := draws.qrToken
      tableNumber := body.tableNumber }
  have hconflict : o.tableConflict row = false ↔
      ∀ t ∈ o.tables, t.restaurantId = user.restaurantId → t.tableNumber ≠ body.tableNumber := by
    rw [tableConflict_eq_false]
    constructor
    · intro h t ht hr hn
      exact (h t ht (lookup_eq_none.mp hf.table t ht)).2 ⟨hr, hn⟩
    · intro h t ht _
      exact ⟨hf.token t ht, fun he => h t ht he.1 he.2⟩
  unfold createTable
  cases hs : o.getRestaurantSlug user with
  | none =>
    have hnone : ¬ ∃ r ∈ o.restaurants, r.id = user.restaurantId := by
      rintro ⟨r, hr, hid⟩
      have hfind := List.find?_eq_none.mp (Option.map_eq_none_iff.mp hs) r hr
      simp [hid] at hfind
    exact ⟨fun _ h => absurd h hnone, fun _ => settled_http ..⟩
  | some slug =>
    obtain ⟨r, hr, -⟩ := Option.map_eq_some_iff.mp hs
    have hsome : ∃ r ∈ o.restaurants, r.id = user.restaurantId :=
      ⟨r, List.mem_of_find?_eq_some hr, by simpa using List.find?_some hr⟩
    rw [← hconflict]
    change Settled (if o.tableConflict row = true then _ else o.saveWithQr lib draws slug row).1 ↔ _
    cases hc : o.tableConflict row with
    | true => simp [not_settled_database, hsome]
    | false =>
      simp only [Bool.false_eq_true, if_false, hsome, forall_const, iff_true]
      exact (settled_saveWithQr hup).mpr hc

theorem Office.settled_updateTable (hup : draws.conditions.Up) (h : o.Lawful) (tableId : Uuid) (body : TableUpdate) :
    Settled (o.updateTable user draws tableId body).1 ↔
      ∀ t ∈ o.tables, t.id = tableId → t.restaurantId = user.restaurantId → body.Writable o t := by
  unfold updateTable
  cases hown : o.ownTable user tableId with
  | none =>
    refine ⟨fun _ t ht hid hr => ?_, fun _ => settled_http ..⟩
    have hn := List.find?_eq_none.mp hown t ht
    simp [hid, hr] at hn
  | some t =>
    obtain ⟨ht, hid, hr⟩ := ownTable_some hown
    have hall : (∀ t' ∈ o.tables, t'.id = tableId → t'.restaurantId = user.restaurantId → body.Writable o t') ↔
        body.Writable o t := by
      refine ⟨fun hw => hw t ht hid hr, fun hw t' ht' hid' _ => ?_⟩
      rw [eq_of_key_eq h.tableIds ht' ht (hid'.trans hid.symm)]
      exact hw
    rw [hall, ← TableUpdate.apply_free ht h]
    dsimp only
    cases happly : body.apply t with
    | none => simp [not_settled_database]
    | some row => simp [settled_saveTable hup]

theorem Office.settled_saveCategory (hup : draws.conditions.Up) {row : CategoryRecord} :
    Settled (o.saveCategory draws row).1 ↔ row.fits = true := by
  rw [saveCategory, settled_if, hup.commits, Bool.and_true]

theorem Office.settled_updateMenuCategory (hup : draws.conditions.Up) (h : o.Lawful) (categoryId : Uuid)
    (body : MenuCategoryUpdate) : Settled (o.updateMenuCategory user draws categoryId body).1 ↔
      ((∃ g ∈ o.categories, g.id = categoryId ∧ g.restaurantId = user.restaurantId) → body.Writable) := by
  unfold updateMenuCategory
  cases hown : o.ownCategory user categoryId with
  | none =>
    refine ⟨fun _ hrow => ?_, fun _ => settled_http ..⟩
    obtain ⟨g, hg, hid, hr⟩ := hrow
    have hn := List.find?_eq_none.mp hown g hg
    simp [hid, hr] at hn
  | some g =>
    obtain ⟨hg, hid, hr⟩ := ownCategory_some hown
    have hsome : ∃ g ∈ o.categories, g.id = categoryId ∧ g.restaurantId = user.restaurantId := ⟨g, hg, hid, hr⟩
    rw [← MenuCategoryUpdate.apply_fits (h.categories g hg)]
    dsimp only
    cases happly : body.apply g with
    | none => simp [not_settled_database, hsome]
    | some row => simp [settled_saveCategory hup, hsome]

theorem Office.settled_updateSettings (hup : draws.conditions.Up) (h : o.Lawful) (body : UpdateSettingsRequest) :
    Settled (o.updateSettings user draws body).1 ↔
      ((∃ s ∈ o.settings, s.restaurantId = user.restaurantId) → body.Writable) := by
  unfold updateSettings
  cases hown : o.ownSettings user with
  | none =>
    refine ⟨fun _ hrow => ?_, fun _ => settled_http ..⟩
    obtain ⟨s, hs, hr⟩ := hrow
    have hn := List.find?_eq_none.mp hown s hs
    simp [hr] at hn
  | some s =>
    obtain ⟨hs, hr⟩ := ownSettings_some hown
    have hsome : ∃ s ∈ o.settings, s.restaurantId = user.restaurantId := ⟨s, hs, hr⟩
    rw [← UpdateSettingsRequest.apply_fits (h.settings s hs)]
    dsimp only
    cases happly : body.apply s with
    | none => simp [not_settled_database, hsome]
    | some row => simp [settled_if, hup.commits, hsome]

/-- The category, where one is given, is one of the restaurant. -/
def Office.OwnsCategory (o : Office) (user : TokenPayload) (categoryId : Option Uuid) : Prop :=
  ∀ k, categoryId = some k → ∃ g ∈ o.categories, g.id = k ∧ g.restaurantId = user.restaurantId

theorem Office.ownsCategory_iff {nextUuid : Uuid} {categoryId : Option Uuid} :
    (o.menuState nextUuid).ownsCategory user categoryId = true ↔ o.OwnsCategory user categoryId := by
  cases categoryId with
  | none => simp [MenuState.ownsCategory, OwnsCategory]
  | some k => simp [MenuState.ownsCategory, OwnsCategory, menuState]

theorem Office.settled_save (hup : draws.conditions.Up) {σ : MenuState} {row : MenuItemRow} :
    Settled (σ.save draws.conditions row).1 ↔ row.fits = true := by
  unfold MenuState.save
  rw [hup.commits, Bool.and_true]
  cases row.fits with
  | true => simp [settled_ok]
  | false => simp [not_settled_database]

theorem Office.settled_createMenuItem (hup : draws.conditions.Up) (body : MenuItemCreate) :
    Settled (o.handleMenu lib user draws (.createMenuItem body)).1 ↔ (o.OwnsCategory user body.categoryId →
      toNumeric body.price < numericLimit ∧ body.prepTimeMinutes ≤ int4Max ∧ body.sortOrder ≤ int4Max) := by
  simp only [handleMenu, MenuCall.handle, MenuState.createMenuItem]
  by_cases hc : o.OwnsCategory user body.categoryId
  · rw [if_pos (ownsCategory_iff.mpr hc), settled_save hup]
    simp [MenuItemRow.fits, hc, and_assoc]
  · rw [if_neg (mt ownsCategory_iff.mp hc)]
    exact ⟨fun _ h => absurd h hc, fun _ => settled_http ..⟩

theorem Office.settled_updateMenuItem (hup : draws.conditions.Up) (h : o.Lawful) (itemId : Uuid)
    (body : MenuItemUpdate) : Settled (o.handleMenu lib user draws (.updateMenuItem itemId body)).1 ↔
      ((∃ i ∈ o.items, i.id = itemId ∧ i.restaurantId = user.restaurantId) →
        o.OwnsCategory user (body.categoryId.getD none) → body.Writable) := by
  simp only [handleMenu, MenuCall.handle, MenuState.updateMenuItem]
  cases hown : (o.menuState draws.nextUuid).ownItem user itemId with
  | none =>
    refine ⟨fun _ hrow => ?_, fun _ => settled_http ..⟩
    obtain ⟨i, hi, hid, hr⟩ := hrow
    have hn := List.find?_eq_none.mp hown i hi
    simp [hid, hr] at hn
  | some i =>
    obtain ⟨hi, hr⟩ := ownItem_some hown
    have hid : i.id = itemId := by
      have hp := List.find?_some hown
      simp only [Bool.and_eq_true, beq_iff_eq] at hp
      exact hp.1
    have hsome : ∃ i ∈ o.items, i.id = itemId ∧ i.restaurantId = user.restaurantId := ⟨i, hi, hid, hr⟩
    dsimp only
    by_cases hc : o.OwnsCategory user (body.categoryId.getD none)
    · rw [if_pos (ownsCategory_iff.mpr hc), ← MenuItemUpdate.apply_fits (h.items i hi)]
      cases happly : body.apply i with
      | none => simp [not_settled_database, hsome, hc]
      | some row => simp [settled_save hup, hsome, hc]
    · rw [if_neg (mt ownsCategory_iff.mp hc)]
      exact ⟨fun _ _ h => absurd h hc, fun _ => settled_http ..⟩

end Handlers

section Bodies

variable {n : Nat} {owner : Uuid → Uuid} {lib : AdminLibrary} {draws : Draws} {w : Moment}
  {P : Premises owner} {req : Fin n → Request} {h : House n}

/-- The handler, alone on the house from its first statement, succeeds or raises an `HTTPException`. -/
def BodyRequest.Settles (lib : AdminLibrary) (draws : Draws) (w : Moment) (h : House n) : BodyRequest → Prop
  | createOrder q body =>
    (∃ a, (Request.createOrder q body).response w h.office.catalog h.clients.state.data = .ok a) ∨
      ∃ statusCode detail, (Request.createOrder q body).response w h.office.catalog h.clients.state.data =
        .error (.http statusCode detail)
  | createMenuItem user body => Settled ((AdminRequest.menu (.createMenuItem body)).handle lib user draws h.office).1
  | updateMenuItem user itemId body =>
    Settled ((AdminRequest.menu (.updateMenuItem itemId body)).handle lib user draws h.office).1
  | createMenuCategory user body => Settled ((AdminRequest.createMenuCategory body).handle lib user draws h.office).1
  | updateMenuCategory user categoryId body =>
    Settled ((AdminRequest.updateMenuCategory categoryId body).handle lib user draws h.office).1
  | createTable user body => Settled ((AdminRequest.createTable body).handle lib user draws h.office).1
  | updateTable user tableId body => Settled ((AdminRequest.updateTable tableId body).handle lib user draws h.office).1
  | updateSettings user body => Settled ((AdminRequest.updateSettings body).handle lib user draws h.office).1

/-- Where the handler comes to write the body, the columns hold what it sets. -/
def BodyRequest.Storable (o : Office) : BodyRequest → Prop
  | createOrder q body => ∀ table restaurant, o.catalog.resolve q = .ok (table, restaurant) →
    (∀ line ∈ body.items, o.catalog.Sells restaurant.id line.menuItemId) →
      ∀ line ∈ body.items, line.quantity ≤ int4Max
  | createMenuItem user body => o.OwnsCategory user body.categoryId →
    toNumeric body.price < numericLimit ∧ body.prepTimeMinutes ≤ int4Max ∧ body.sortOrder ≤ int4Max
  | updateMenuItem user itemId body => (∃ i ∈ o.items, i.id = itemId ∧ i.restaurantId = user.restaurantId) →
    o.OwnsCategory user (body.categoryId.getD none) → body.Writable
  | createMenuCategory _ body => body.sortOrder ≤ int4Max
  | updateMenuCategory user categoryId body =>
    (∃ g ∈ o.categories, g.id = categoryId ∧ g.restaurantId = user.restaurantId) → body.Writable
  | createTable user body => (∃ r ∈ o.restaurants, r.id = user.restaurantId) →
    ∀ t ∈ o.tables, t.restaurantId = user.restaurantId → t.tableNumber ≠ body.tableNumber
  | updateTable user tableId body =>
    ∀ t ∈ o.tables, t.id = tableId → t.restaurantId = user.restaurantId → body.Writable o t
  | updateSettings user body => (∃ s ∈ o.settings, s.restaurantId = user.restaurantId) → body.Writable

theorem Request.settled_createOrder {c : Catalog} {d : Data} (hk : (c.menuItems.map MenuItem.id).Nodup)
    (hd : d.Ok owner) (w : Moment) (q : String) (body : CreateOrderRequest) :
    ((∃ a, (Request.createOrder q body).response w c d = .ok a) ∨
      ∃ statusCode detail, (Request.createOrder q body).response w c d = .error (.http statusCode detail)) ↔
    ∀ table restaurant, c.resolve q = .ok (table, restaurant) →
      (∀ line ∈ body.items, c.Sells restaurant.id line.menuItemId) →
        ∀ line ∈ body.items, line.quantity ≤ int4Max := by
  have hrun := Request.createOrder_response w c d q body
  cases hr : c.resolve q with
  | error e =>
    have hanswer : (w.solo c d).run (Customer.createOrder q body) = (.error e, w.solo c d) := by
      unfold Customer.createOrder
      exact Solo.resolve_error hr
    rw [hrun, hanswer]
    constructor
    · intro _ table restaurant h
      cases h
    · intro _
      rcases Catalog.resolve_error hr with rfl | rfl <;> exact .inr ⟨_, _, rfl⟩
  | ok resolved =>
    obtain ⟨table, restaurant⟩ := resolved
    obtain ⟨session, s₁, -, hends⟩ := Solo.createOrder_ends (s := w.solo c d) rfl hd hr body
    have hone : (∀ t r, (Except.ok (table, restaurant) : Except Exn (Table × Restaurant)) = .ok (t, r) →
        (∀ line ∈ body.items, c.Sells r.id line.menuItemId) → ∀ line ∈ body.items, line.quantity ≤ int4Max) ↔
        ((∀ line ∈ body.items, c.Sells restaurant.id line.menuItemId) →
          ∀ line ∈ body.items, line.quantity ≤ int4Max) := by
      refine ⟨fun h => h _ _ rfl, fun h t r he => ?_⟩
      cases he
      exact h
    rw [hone, hrun]
    generalize ((w.solo c d).run (Customer.createOrder q body)).1 = answer at hends
    cases hends with
    | refused line hl e he =>
      obtain ⟨detail, rfl⟩ := Catalog.accept_error he
      refine ⟨fun _ hall => ?_, fun _ => .inr ⟨_, _, rfl⟩⟩
      obtain ⟨m, hm⟩ := (Catalog.accept_iff hk).mpr (hall line hl)
      have he' : c.accept restaurant.id line = .error (.http 400 detail) := he
      rw [hm] at he'
      cases he'
    | overflow ha hq =>
      constructor
      · rintro (⟨a, h⟩ | ⟨statusCode, detail, h⟩) <;> cases h
      · intro hall
        obtain ⟨line, hl, hlt⟩ := hq
        have hle := hall (fun l hm => (Catalog.accept_iff hk).mp (ha l hm)) line hl
        exact absurd hlt (Nat.not_lt.mpr hle)
    | placed ha hq response hs => exact ⟨fun _ _ => hq, fun _ => .inl ⟨_, rfl⟩⟩

/-- A body raises nothing but an `HTTPException` exactly where the columns hold what it sets. -/
theorem bodies_answered (hr : P.Reaches lib req h) (hf : h.office.Fresh draws) (hup : draws.conditions.Up)
    (r : BodyRequest) : r.Settles lib draws w h ↔ r.Storable h.office := by
  have hlawful := hr.kept.lawful
  cases r with
  | createOrder q body => exact Request.settled_createOrder hlawful.dishIds hr.clients.inv.ok w q body
  | createMenuItem user body => exact settled_map.trans (Office.settled_createMenuItem hup body)
  | updateMenuItem user itemId body => exact settled_map.trans (Office.settled_updateMenuItem hup hlawful itemId body)
  | createMenuCategory user body =>
    exact settled_map.trans ((Office.settled_saveCategory hup).trans decide_eq_true_iff)
  | updateMenuCategory user categoryId body =>
    exact settled_map.trans (Office.settled_updateMenuCategory hup hlawful categoryId body)
  | createTable user body => exact settled_map.trans (Office.settled_createTable hup hf body)
  | updateTable user tableId body => exact settled_map.trans (Office.settled_updateTable hup hlawful tableId body)
  | updateSettings user body => exact settled_map.trans (Office.settled_updateSettings hup hlawful body)

end Bodies

section Cafe

theorem cafeDraws_up : cafeDraws.conditions.Up := ⟨rfl, fun _ => rfl⟩

/-- A second table is created under its own number, and not under the first's. -/
theorem bodies_answered_cafe :
    (BodyRequest.createTable cafeStaff { tableNumber := "2" }).Settles cafeLibrary cafeDraws cafe.moment
        (cafePremises.house fun _ : Fin 1 => cafeOrder) ∧
      ¬ (BodyRequest.createTable cafeStaff { tableNumber := "1" }).Settles cafeLibrary cafeDraws cafe.moment
        (cafePremises.house fun _ : Fin 1 => cafeOrder) := by
  have hr : cafePremises.Reaches cafeLibrary (fun _ : Fin 1 => cafeOrder) (cafePremises.house fun _ => cafeOrder) :=
    .refl
  constructor
  · refine (bodies_answered hr cafeDraws_fresh cafeDraws_up _).mpr fun _ t ht _ => ?_
    obtain rfl : t = { id := 2, restaurantId := 1, qrToken := "ban-1", tableNumber := "1" } := by
      simpa [cafePremises, Premises.house, cafeOffice] using ht
    decide
  · intro h
    have hfree := (bodies_answered hr cafeDraws_fresh cafeDraws_up _).mp h
    exact hfree ⟨_, List.mem_singleton_self _, rfl⟩ _ (List.mem_singleton_self _) rfl rfl

/-- A dish is renamed to null. -/
theorem bodies_answered_fails : ¬ ∀ (P : Premises fun _ => 1) (lib : AdminLibrary) (draws : Draws) (w : Moment)
    (h : House 1) (r : BodyRequest), P.Reaches lib (fun _ => cafeOrder) h → h.office.Fresh draws →
      draws.conditions.Up → r.Settles lib draws w h := by
  intro h
  have hsettles := h cafePremises cafeLibrary cafeDraws cafe.moment (cafePremises.house fun _ => cafeOrder)
    (.updateMenuItem cafeStaff 3 { name := some none }) .refl cafeDraws_fresh cafeDraws_up
  exact not_settled_database hsettles

end Cafe

end QOrder
