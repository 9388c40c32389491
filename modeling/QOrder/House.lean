import QOrder.OfficeLaws

/-! The offices and the ordering flow in one run: the clients execute their statements, the
requests of administrators commit between them, and the operator switches restaurants. -/

namespace QOrder

open KeyedTable Concurrency

variable {n : Nat} {owner : Uuid → Uuid} {lib : AdminLibrary}

/-- The tokens that tables have been given are kept with the newest first. -/
structure House (n : Nat) where
  office : Office
  clients : Clients n
  issued : List (Uuid × String)

def latestToken (issued : List (Uuid × String)) (tableId : Uuid) : Option String :=
  (issued.find? fun x => x.1 == tableId).map Prod.snd

def Office.switch (o : Office) (restaurantId : Uuid) (isActive : Bool) : Office :=
  { o with restaurants := o.restaurants.map fun r => if r.id = restaurantId then { r with isActive } else r }

namespace House

variable (h : House n)

/-- The office has become `office`, and the ordering flow reads it. -/
def edit (office : Office) (issues : List (Uuid × String)) : House n where
  office := office
  clients := { h.clients with state := { h.clients.state with catalog := office.catalog } }
  issued := issues ++ h.issued

def serveAdmin (lib : AdminLibrary) (user : TokenPayload) (draws : Draws) (r : AdminRequest) : House n :=
  h.edit (r.handle lib user draws h.office).2 (r.issues (r.handle lib user draws h.office).1)

/-- A generated id is new, and a generated token is none that has been issued. -/
inductive Step (lib : AdminLibrary) (owner : Uuid → Uuid) (h : House n) : House n → Prop
  | client {p : Clients n} (hs : (machine owner n).Step h.clients p)
      (hc : p.state.catalog = h.clients.state.catalog) : Step lib owner h { h with clients := p }
  | admin (user : TokenPayload) (draws : Draws) (r : AdminRequest) (hf : h.office.Fresh draws)
      (hq : ∀ x ∈ h.issued, x.2 ≠ draws.qrToken)
      (ho : (r.handle lib user draws h.office).2.catalog.Owned owner) :
      Step lib owner h (h.serveAdmin lib user draws r)
  | switch (restaurantId : Uuid) (isActive : Bool) :
      Step lib owner h (h.edit (h.office.switch restaurantId isActive) [])

abbrev Reaches (lib : AdminLibrary) (owner : Uuid → Uuid) : House n → House n → Prop :=
  Relation.ReflTransGen (Step lib owner)

end House

/-- Every token has been issued once, and a table has the latest of its tokens. -/
structure Office.Issued (o : Office) (issued : List (Uuid × String)) : Prop where
  once : (issued.map Prod.snd).Nodup
  latest : ∀ t ∈ o.tables, latestToken issued t.id = some t.qrToken
  known : ∀ x ∈ issued, ∃ t ∈ o.tables, t.id = x.1

/-- Where runs start: the rows obey their constraints, and the tokens are told apart. -/
structure Premises (owner : Uuid → Uuid) extends Deployment owner where
  office : Office
  issued : List (Uuid × String)
  synced : catalog = office.catalog
  lawful : office.Lawful
  tokens : office.Issued issued

namespace Premises

variable (P : Premises owner)

def house (req : Fin n → Request) : House n where
  office := P.office
  clients := P.toDeployment.start req
  issued := P.issued

abbrev Reaches (lib : AdminLibrary) (req : Fin n → Request) (h : House n) : Prop :=
  House.Reaches lib owner (P.house req) h

end Premises

section Laws

variable {o : Office} {restaurantId : Uuid} {isActive : Bool}

theorem Office.switch_keeps (r : RestaurantRecord) :
    (if r.id = restaurantId then { r with isActive } else r).id = r.id ∧
      (if r.id = restaurantId then { r with isActive } else r).slug = r.slug := by
  split <;> exact ⟨rfl, rfl⟩

theorem Office.Lawful.switch (h : o.Lawful) : (o.switch restaurantId isActive).Lawful := by
  refine { h with restaurantIds := ?_, slugs := ?_ }
  · have hids : (o.switch restaurantId isActive).restaurants.map key = o.restaurants.map key := by
      rw [Office.switch, List.map_map]
      exact List.map_congr_left fun r _ => (switch_keeps r).1
    rw [UniqueKeys, hids]
    exact h.restaurantIds
  · intro r hr r' hr' hs
    obtain ⟨r₀, hr₀, rfl⟩ := List.mem_map.mp hr
    obtain ⟨r₁, hr₁, rfl⟩ := List.mem_map.mp hr'
    rw [(switch_keeps r₀).2, (switch_keeps r₁).2] at hs
    rw [h.slugs r₀ hr₀ r₁ hr₁ hs]

theorem latestToken_cons {issued : List (Uuid × String)} {t k : Uuid} {q : String} :
    latestToken ((t, q) :: issued) k = if t = k then some q else latestToken issued k := by
  by_cases h : t = k <;> simp [latestToken, h]

theorem Office.Issued.added {issued : List (Uuid × String)} (h : o.Issued issued) {row : TableRecord}
    (hk : UniqueKeys o.tables) (hq : ∀ x ∈ issued, x.2 ≠ row.qrToken) (store : ObjectStore) :
    ({ o with tables := overlay o.tables [row], store } : Office).Issued ((row.id, row.qrToken) :: issued) where
  once := by
    rw [List.map_cons, List.nodup_cons]
    refine ⟨fun hm => ?_, h.once⟩
    obtain ⟨x, hx, he⟩ := List.mem_map.mp hm
    exact hq x hx he
  latest t ht := by
    rw [latestToken_cons]
    rcases (mem_overlay_one hk).mp ht with rfl | ⟨hm, hne⟩
    · exact if_pos rfl
    · have hid : ¬ row.id = t.id := Ne.symm hne
      rw [if_neg hid, h.latest t hm]
  known x hx := by
    rcases List.mem_cons.mp hx with rfl | hx
    · exact ⟨row, (mem_overlay_one hk).mpr (.inl rfl), rfl⟩
    · obtain ⟨t, ht, hid⟩ := h.known x hx
      by_cases he : t.id = row.id
      · exact ⟨row, (mem_overlay_one hk).mpr (.inl rfl), he.symm.trans hid⟩
      · exact ⟨t, (mem_overlay_one hk).mpr (.inr ⟨ht, he⟩), hid⟩

/-- A table is edited, and keeps its token. -/
theorem Office.Issued.edited {issued : List (Uuid × String)} (h : o.Issued issued) {t row : TableRecord}
    (hk : UniqueKeys o.tables) (ht : t ∈ o.tables) (hid : row.id = t.id) (hq : row.qrToken = t.qrToken) :
    ({ o with tables := overlay o.tables [row] } : Office).Issued issued where
  once := h.once
  latest x hx := by
    rcases (mem_overlay_one hk).mp hx with rfl | ⟨hm, -⟩
    · rw [hid, hq, h.latest t ht]
    · exact h.latest x hm
  known x hx := by
    obtain ⟨t', ht', hid'⟩ := h.known x hx
    by_cases he : t'.id = row.id
    · exact ⟨row, (mem_overlay_one hk).mpr (.inl rfl), he.symm.trans hid'⟩
    · exact ⟨t', (mem_overlay_one hk).mpr (.inr ⟨ht', he⟩), hid'⟩

theorem Office.Wrote.issued {user : TokenPayload} {draws : Draws} {o' : Office} {l issued : List (Uuid × String)}
    (hw : Office.Wrote user draws o l o') (h : o.Lawful) (hi : o.Issued issued)
    (hq : ∀ x ∈ issued, x.2 ≠ draws.qrToken) : o'.Issued (l ++ issued) := by
  cases hw with
  | tableAdded row store hr hid hrow hc => exact hi.added h.tableIds (hrow ▸ hq) store
  | tableEdited t row ht hr hid hr' hrow hc => exact hi.edited h.tableIds ht hid hrow
  | tableRenewed t imageUrl store ht hr hc => exact hi.added h.tableIds hq store
  | nothing | category | item | settings | staff => exact { hi with }

end Laws

section Runs

variable {P : Premises owner} {req : Fin n → Request} {h h' : House n}

/-- What holds of the house at every step. -/
structure House.Kept (h : House n) : Prop where
  synced : h.clients.state.catalog = h.office.catalog
  lawful : h.office.Lawful
  issued : h.office.Issued h.issued

theorem House.Kept.step (hk : h.Kept) (hs : h.Step lib owner h') : h'.Kept := by
  cases hs with
  | client hs hc => exact { hk with synced := hc.trans hk.synced }
  | admin user draws r hf hq ho =>
    exact ⟨rfl, r.wrote.lawful hk.lawful, r.wrote.issued hk.lawful hk.issued hq⟩
  | switch restaurantId isActive => exact ⟨rfl, hk.lawful.switch, { hk.issued with }⟩

theorem House.Reaches.kept (hr : House.Reaches lib owner h h') (hk : h.Kept) : h'.Kept := by
  induction hr with
  | refl => exact hk
  | tail _ hs ih => exact ih.step hs

theorem Premises.kept (P : Premises owner) (req : Fin n → Request) : (P.house req).Kept :=
  ⟨P.synced, P.lawful, P.tokens⟩

/-- A run of the house is a run of its clients while the catalog is edited. -/
theorem Premises.Reaches.clients (hr : P.Reaches lib req h) : P.toDeployment.Reaches req h.clients := by
  have howned {h : House n} (hc : P.toDeployment.Reaches req h.clients) (hk : h.Kept) :
      h.office.catalog.Owned owner := hk.synced ▸ hc.inv.owned
  induction hr with
  | refl => exact .refl
  | tail hr hs ih =>
    cases hs with
    | client hs _ => exact ih.tail hs
    | admin user draws r hf hq ho => exact ih.tail (.env (.edit _ ho))
    | switch restaurantId isActive =>
      exact ih.tail (.env (.edit _ (howned ih (House.Reaches.kept hr (P.kept req)))))

theorem Premises.Reaches.kept (hr : P.Reaches lib req h) : h.Kept :=
  House.Reaches.kept hr (P.kept req)

end Runs

section Cafe

/-- The café's rows, with one category for its dish. -/
def cafeOffice : Office where
  restaurants := [{ id := 1, slug := "cafe", isActive := true, name := "Quán Cà Phê" }]
  settings := [{ restaurantId := 1 }]
  tables := [{ id := 2, restaurantId := 1, qrToken := "ban-1", tableNumber := "1" }]
  categories := [{ id := 6, restaurantId := 1, name := "Món chính", sortOrder := 0 }]
  items :=
    [{ id := 3, restaurantId := 1, categoryId := some 6, name := "Phở bò", description := none, price := 5000000
       prepTimeMinutes := 10, imageUrl := none, isFeatured := false, sortOrder := 0 }]
  users := [{ id := 4, restaurantId := 1, role := .staff, pinHash := some "hash" }]

theorem cafeOffice_lawful : cafeOffice.Lawful where
  restaurantIds := by decide
  settingsIds := by decide
  tableIds := by decide
  categoryIds := by decide
  itemIds := by decide
  userIds := by decide
  slugs := by decide
  tables := by decide
  categories := by decide
  items := by decide
  settings := by decide

def cafePremises : Premises fun _ => 1 where
  toDeployment := cafe
  office := cafeOffice
  issued := [(2, "ban-1")]
  synced := rfl
  lawful := cafeOffice_lawful
  tokens := ⟨by decide, by decide, by decide⟩

def cafeLibrary : AdminLibrary where
  storage := assets
  baseUrl := "http://localhost:3000"
  images := noPillow
  makeQr text := text.toList.map fun c => UInt8.ofNat c.toNat
  hashPin pin := "$2b$12$" ++ pin
  collate a b := decide (a ≤ b)

def cafeDraws : Draws where
  conditions := fairWeather
  nextUuid := 20
  qrToken := "ban-moi"

theorem cafeDraws_fresh : cafeOffice.Fresh cafeDraws := ⟨by decide, by decide, by decide, by decide⟩

end Cafe

end QOrder
