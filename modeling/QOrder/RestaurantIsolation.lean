import QOrder.AdminRegions
import QOrder.Coherence
import QOrder.TokenRuns

/-! A request that acts for a restaurant, in two houses that have the same rows of it: it is
answered the same, does the same to these rows, and leaves the rows of all others as they were. -/

namespace QOrder

open KeyedTable Concurrency

section Ordering

variable {owner owner' : Uuid → Uuid} {R : Uuid} {c c' : Catalog} {d d' : Data} {r : Request} {w : Moment}

/-- The table has a row of the restaurant, or a session of it. -/
def Catalog.seats (c : Catalog) (d : Data) (R t : Uuid) : Bool :=
  (c.tables.any fun x => x.id == t && x.restaurantId == R) ||
    d.sessions.any fun s => s.tableId == t && s.restaurantId == R

theorem Catalog.seats_owner (hc : c.Owned owner) (hd : d.Ok owner) {t : Uuid} (h : c.seats d R t = true) :
    owner t = R := by
  simp only [Catalog.seats, Bool.or_eq_true, List.any_eq_true, Bool.and_eq_true, beq_iff_eq] at h
  rcases h with ⟨x, hx, rfl, hr⟩ | ⟨s, hs, rfl, hr⟩
  · rw [← hc x hx, hr]
  · rw [← hd.restaurant s hs, hr]

/-- The tables without such rows belong to others. -/
def ownerBy (owner : Uuid → Uuid) (R : Uuid) (c : Catalog) (d : Data) (t : Uuid) : Uuid :=
  if c.seats d R t then R else if owner t = R then R + 1 else owner t

theorem ownerBy_eq_iff {t : Uuid} : ownerBy owner R c d t = R ↔ c.seats d R t = true := by
  unfold ownerBy
  by_cases hs : c.seats d R t = true
  · rw [if_pos hs]
    exact iff_of_true rfl hs
  · rw [if_neg hs]
    refine iff_of_false (fun he => ?_) hs
    by_cases ho : owner t = R
    · rw [if_pos ho] at he
      exact absurd he (Nat.succ_ne_self R)
    · rw [if_neg ho] at he
      exact ho he

/-- Where a row is of the restaurant that owns its table, it is so for these owners. -/
theorem ownerBy_of_owner {t rid : Uuid} (hown : rid = owner t) (hseats : rid = R → c.seats d R t = true)
    (hc : c.Owned owner) (hd : d.Ok owner) : rid = ownerBy owner R c d t := by
  by_cases hr : rid = R
  · rw [ownerBy, if_pos (hseats hr), hr]
  · have hne : owner t ≠ R := fun he => hr (hown.trans he)
    have hno : ¬ c.seats d R t = true := fun hs => hne (Catalog.seats_owner hc hd hs)
    rw [ownerBy, if_neg hno, if_neg hne, hown]

theorem Catalog.Owned.by (hc : c.Owned owner) (hd : d.Ok owner) : c.Owned (ownerBy owner R c d) := by
  intro t ht
  refine ownerBy_of_owner (hc t ht) (fun hr => ?_) hc hd
  simp only [Catalog.seats, Bool.or_eq_true, List.any_eq_true, Bool.and_eq_true, beq_iff_eq]
  exact .inl ⟨t, ht, rfl, hr⟩

theorem Data.Ok.by (hd : d.Ok owner) (hc : c.Owned owner) : d.Ok (ownerBy owner R c d) := by
  refine { hd with restaurant := fun s hs => ?_ }
  refine ownerBy_of_owner (hd.restaurant s hs) (fun hr => ?_) hc hd
  simp only [Catalog.seats, Bool.or_eq_true, List.any_eq_true, Bool.and_eq_true, beq_iff_eq]
  exact .inr ⟨s, hs, rfl, hr⟩

/-- Databases that agree on the rows of the restaurant agree on its tables. -/
theorem agree_by (hc : c'.select (· == R) = c.select (· == R)) (hd : d'.select (· == R) = d.select (· == R)) :
    Agree R (ownerBy owner R c d) (ownerBy owner' R c' d') c c' d d' := by
  refine ⟨fun t => ?_, hc, hd⟩
  have htables : (c'.tables.any fun x => x.id == t && x.restaurantId == R) =
      c.tables.any fun x => x.id == t && x.restaurantId == R := by
    refine any_agree (f := Table.restaurantId) (congrArg Catalog.tables hc) fun x hx => ?_
    simp only [Bool.and_eq_true, beq_iff_eq] at hx
    exact hx.2
  have hsessions : (d'.sessions.any fun s => s.tableId == t && s.restaurantId == R) =
      d.sessions.any fun s => s.tableId == t && s.restaurantId == R := by
    refine any_agree (f := TableSession.restaurantId) (congrArg Data.sessions hd) fun s hs => ?_
    simp only [Bool.and_eq_true, beq_iff_eq] at hs
    exact hs.2
  rw [ownerBy_eq_iff, ownerBy_eq_iff, Catalog.seats, Catalog.seats, htables, hsessions]

/-- A database that a request may find. -/
structure Meets (owner : Uuid → Uuid) (w : Moment) (c : Catalog) (d : Data) : Prop where
  owned : c.Owned owner
  tokens : c.UniqueTokens
  chained : d.Chained owner
  below : d.Below w.nextUuid

theorem Meets.by (h : Meets owner w c d) : Meets (ownerBy owner R c d) w c d where
  owned := h.owned.by h.chained.ok
  tokens := h.tokens
  chained := ⟨h.chained.ok.by h.owned, h.chained.tenanted, h.chained.seated⟩
  below := h.below

/-- What an operation of the ordering flow does for a restaurant. -/
structure Request.Apart (R : Uuid) (r : Request) (w : Moment) (c c' : Catalog) (d d' : Data) : Prop where
  response : r.response w c' d' = r.response w c d
  messages : r.messages w c' d' = r.messages w c d
  own : (r.effect w c' d').select (· == R) = (r.effect w c d).select (· == R)
  others : (r.effect w c d).select (· != R) = d.select (· != R)

theorem Request.ActsFor.apart (hr : r.ActsFor c R) (h : Meets owner w c d) (h' : Meets owner' w c' d')
    (hc : c'.select (· == R) = c.select (· == R)) (hd : d'.select (· == R) = d.select (· == R)) :
    r.Apart R w c c' d d' := by
  have hagree : Agree R (ownerBy owner R c d) (ownerBy owner' R c' d') c c' d d' := agree_by hc hd
  have hself : Agree R (ownerBy owner R c d) (ownerBy owner R c d) c c d d := .refl ..
  have h := h.by (R := R)
  have h' := h'.by (R := R)
  let limit := (r.execute w c d).2.nextUuid
  let new (id : Uuid) : Bool := decide (w.nextUuid ≤ id) && decide (id < limit)
  have hnew : ∀ id, new id = true → w.nextUuid ≤ id := fun id hn => by
    simp only [new, Bool.and_eq_true, decide_eq_true_eq] at hn
    exact hn.1
  let m := restaurantAtlas (ownerBy owner R c d) R c d new
  have hplaced : d.Placed m := hself.placed h.chained (h.below.fresh hnew)
  have hplaced' : d'.Placed m := hagree.placed h'.chained (h'.below.fresh hnew)
  have hpart {d : Data} (hd : d.Placed m) (z : Bool) : d.part m z = d.select fun rid => (rid == R) == z := hd.select z
  have hown {d : Data} (hd : d.Placed m) : d.part m true = d.select (· == R) := by
    rw [hpart hd]
    exact congrArg d.select (funext fun rid => by simp)
  have hother {d : Data} (hd : d.Placed m) : d.part m false = d.select (· != R) := by
    rw [hpart hd]
    exact congrArg d.select (funext fun rid => by simp [bne])
  have hsame : r.Same w m true c c' d d' := by
    refine Request.same hr.within (hself.charted h.owned h.tokens) (hagree.charted h'.owned h'.tokens)
      (hagree.alike h.owned h'.owned h.tokens h'.tokens) hplaced hplaced' ?_ fun id hid => ?_
    · rw [hown hplaced, hown hplaced', hd]
    · have hn : new id = true := by
        simp only [new, Bool.and_eq_true, decide_eq_true_eq]
        exact hid
      simp [Atlas.Free, m, restaurantAtlas, hn]
  refine ⟨hsame.response, hsame.messages, ?_, ?_⟩
  · rw [← hown hsame.placed, ← hown hsame.placed', hsame.part]
  · rw [← hother hsame.placed, ← hother hplaced, hsame.rest false Bool.false_ne_true]

end Ordering

section Calls

variable (lib : AccessLibrary) (now : Nat) (w : Moment)

def Site.select (σ : Site) (P : Uuid → Bool) : Site := ⟨σ.office.select P, σ.data.select P⟩

/-- The messages that a call publishes on a channel. -/
def Site.published (σ : Site) (channel : Channel) : ClientCall → List RealtimeEvent
  | .customer r => r.messages w σ.office.catalog σ.data channel
  | .staff credentials r =>
    match requireRole lib.tokens now ["staff", "admin"] credentials with
    | .error _ => []
    | .ok token => ((r.request token.user).map fun r => r.messages w σ.office.catalog σ.data channel).getD []
  | _ => []

/-- The call acts for the restaurant of its JWT, or of the table that its token resolves to. A login
acts for none. -/
def ClientCall.OnBehalfOf (o : Office) (R : Uuid) : ClientCall → Prop
  | resolveQr qrToken => ∃ t, o.catalog.activeTable qrToken = some t ∧ t.restaurantId = R
  | customer r => r.ActsFor o.catalog R
  | staff credentials _ | admin credentials _ _ =>
    ∃ token, getCurrentUser lib.tokens now credentials = .ok token ∧ token.restaurantId = R
  | staffLogin _ | adminLogin _ | wsTicket _ _ => False

/-- The ids and the token that the call generates are new. -/
def ClientCall.Fresh (h : Office) : ClientCall → Prop
  | admin _ draws _ => h.Fresh draws
  | _ => True

/-- What a call does for a restaurant, in two states of the rows. -/
structure ClientCall.Apart (R : Uuid) (call : ClientCall) (σ σ' : Site) : Prop where
  answer : (σ'.serve lib now w call).1 = (σ.serve lib now w call).1
  published : ∀ channel, σ'.published lib now w channel call = σ.published lib now w channel call
  own : (σ'.serve lib now w call).2.select (· == R) = (σ.serve lib now w call).2.select (· == R)
  others : (σ.serve lib now w call).2.select (· != R) = σ.select (· != R)

end Calls

section Twins

variable {lib : AccessLibrary} {now : Nat} {w : Moment} {R : Uuid} {σ σ' : Site} {owner owner' : Uuid → Uuid}

/-- The tokens of the tables are told apart. -/
theorem Office.Lawful.uniqueTokens {o : Office} (h : o.Lawful) : o.catalog.UniqueTokens := by
  have htokens : o.catalog.tables.map Table.qrToken = o.tables.map fun t => t.qrToken := by
    rw [Office.catalog, List.map_map]
    rfl
  rw [Catalog.UniqueTokens, htokens]
  refine List.Nodup.map_on (fun t ht t' ht' hq => ?_) h.tableIds.of_map
  exact h.token_unique ht' ht hq

/-- What is answered and left in the two. -/
structure Ends (R : Uuid) (σ : Site) (out out' : Except CallError CallAnswer × Site) : Prop where
  answer : out'.1 = out.1
  own : out'.2.select (· == R) = out.2.select (· == R)
  others : out.2.select (· != R) = σ.select (· != R)

/-- Two states of the rows that a call may find, with the same rows of the restaurant. -/
structure Site.Twin (w : Moment) (R : Uuid) (owner owner' : Uuid → Uuid) (σ σ' : Site) : Prop where
  lawful : σ.office.Lawful
  lawful' : σ'.office.Lawful
  meets : Meets owner w σ.office.catalog σ.data
  meets' : Meets owner' w σ'.office.catalog σ'.data
  rows : σ'.select (· == R) = σ.select (· == R)

namespace Site.Twin

variable (h : Site.Twin w R owner owner' σ σ')

include h

theorem office : σ'.office.select (· == R) = σ.office.select (· == R) := congrArg Site.office h.rows

theorem catalog : σ'.office.catalog.select (· == R) = σ.office.catalog.select (· == R) := by
  rw [Office.catalog_select, Office.catalog_select, h.office]

theorem apart {r : Request} (hr : r.ActsFor σ.office.catalog R) :
    r.Apart R w σ.office.catalog σ'.office.catalog σ.data σ'.data :=
  hr.apart h.meets h.meets' h.catalog (congrArg Site.data h.rows)

/-- The page of a token. -/
theorem resolveQr {qrToken : String} {t : Table} (ht : σ.office.catalog.activeTable qrToken = some t)
    (hr : t.restaurantId = R) : σ'.office.resolveQr qrToken = σ.office.resolveQr qrToken := by
  rw [Office.activeTable_eq, Option.map_eq_some_iff] at ht
  obtain ⟨row, hfind, rfl⟩ := ht
  have hrow := List.find?_some hfind
  have hmem : row ∈ σ'.office.tables :=
    mem_agree (congrArg Office.tables h.office) (List.mem_of_find?_eq_some hfind) hr
  have hfind' : (σ'.office.tables.find? fun t => t.qrToken == qrToken && t.isActive) = some row := by
    cases hf : σ'.office.tables.find? fun t => t.qrToken == qrToken && t.isActive with
    | none => exact absurd hrow (List.find?_eq_none.mp hf row hmem)
    | some x =>
      have hx := List.find?_some hf
      simp only [Bool.and_eq_true, beq_iff_eq] at hx hrow
      rw [h.lawful'.token_unique hmem (List.mem_of_find?_eq_some hf) (hx.1.trans hrow.1.symm)]
  have hrestaurant : (σ'.office.restaurants.find? fun x => x.id == row.restaurantId && x.isActive) =
      σ.office.restaurants.find? fun x => x.id == row.restaurantId && x.isActive := by
    refine find_agree (f := fun x : RestaurantRecord => x.id) (congrArg Office.restaurants h.office) fun x hx => ?_
    simp only [Bool.and_eq_true, beq_iff_eq] at hx
    exact hx.1.trans hr
  unfold Office.resolveQr
  rw [hfind', hfind]
  dsimp only
  rw [hrestaurant]
  cases hf : σ.office.restaurants.find? fun x => x.id == row.restaurantId && x.isActive with
  | none => rfl
  | some restaurant =>
    have hid : restaurant.id = R := by
      have hx := List.find?_some hf
      simp only [Bool.and_eq_true, beq_iff_eq] at hx
      exact hx.1.trans hr
    have hsettings : (σ'.office.settings.find? fun s => s.restaurantId == R) =
        σ.office.settings.find? fun s => s.restaurantId == R :=
      find_agree (f := fun s : SettingsRecord => s.restaurantId) (congrArg Office.settings h.office)
        fun s hs => beq_iff_eq.mp hs
    have hmenu : σ'.office.customerMenu R = σ.office.customerMenu R := by
      unfold Office.customerMenu Office.activeCategories Office.activeItems
      rw [filter_agree (f := fun g : CategoryRecord => g.restaurantId) (congrArg Office.categories h.office) fun g => g.isActive,
        filter_agree (f := MenuItemRow.restaurantId) (congrArg Office.items h.office) fun i => i.isActive]
    dsimp only
    rw [hid, hsettings, hmenu]

theorem getKitchenBoard : Kitchen.getKitchenBoard σ'.data R = Kitchen.getKitchenBoard σ.data R := by
  unfold Kitchen.getKitchenBoard Kitchen.active
  rw [filter_agree (f := OrderItem.restaurantId) (congrArg (fun σ : Site => σ.data.items) h.rows) fun i => i.status.unserved]

/-- What an endpoint leaves of the two. -/
theorem execute {r : Request} (hr : r.ActsFor σ.office.catalog R) : Ends R σ (σ.execute w r) (σ'.execute w r) := by
  have ha := h.apart hr
  refine ⟨?_, ?_, ?_⟩
  · exact congrArg (fun answer => (Except.mapError CallError.exn answer).map CallAnswer.response) ha.response
  · exact congrArg₂ Site.mk h.office ha.own
  · exact congrArg (Site.mk _) ha.others

theorem unchanged (answer : Except CallError CallAnswer) : Ends R σ (answer, σ) (answer, σ') := ⟨rfl, h.rows, rfl⟩

theorem serveStaff {user : TokenPayload} (hu : user.restaurantId = R) (r : StaffRequest) :
    Ends R σ (σ.serveStaff w user r) (σ'.serveStaff w user r) := by
  unfold Site.serveStaff
  cases r with
  | getKitchenBoard =>
    dsimp only [StaffRequest.request]
    rw [hu, h.getKitchenBoard]
    exact h.unchanged _
  | _ => exact h.execute hu

theorem serveAdmin {user : TokenPayload} (hu : user.restaurantId = R) {draws : Draws} (hf : σ.office.Fresh draws)
    (hf' : σ'.office.Fresh draws) (r : AdminRequest) :
    Ends R σ (σ.serveAdmin lib user draws r) (σ'.serveAdmin lib user draws r) := by
  subst hu
  have halike : Office.Alike user draws σ.office σ'.office := ⟨h.lawful, h.lawful', hf, hf', h.office⟩
  have hsame : SameFor user.restaurantId (r.handle lib.admins user draws σ.office)
      (r.handle lib.admins user draws σ'.office) := halike.handle r
  have hrest : (r.handle lib.admins user draws σ.office).2.select (· != user.restaurantId) =
      σ.office.select (· != user.restaurantId) := r.wrote.rest h.lawful hf (by simp)
  refine ⟨?_, ?_, ?_⟩
  · exact congrArg (fun answer => (Except.mapError CallError.menu answer).map CallAnswer.admin) hsame.1
  · exact congrArg₂ Site.mk hsame.2 (congrArg Site.data h.rows)
  · exact congrArg (Site.mk · _) hrest

theorem guarded {roles : List String} {credentials : Option String} {token : AccessToken}
    (htoken : getCurrentUser lib.tokens now credentials = .ok token)
    {endpoint endpoint' : AccessToken → Except CallError CallAnswer × Site}
    (hend : Ends R σ (endpoint token) (endpoint' token)) :
    Ends R σ (σ.guarded lib now roles credentials endpoint) (σ'.guarded lib now roles credentials endpoint') := by
  unfold Site.guarded requireRole
  rw [htoken]
  dsimp only
  by_cases hrole : token.role ∈ roles
  · rw [if_pos hrole]
    exact hend
  · rw [if_neg hrole]
    exact h.unchanged _

/-- The messages of the staff's requests. -/
theorem published_staff {credentials : Option String} {token : AccessToken}
    (htoken : getCurrentUser lib.tokens now credentials = .ok token) (hr : token.restaurantId = R)
    (r : StaffRequest) (channel : Channel) :
    σ'.published lib now w channel (.staff credentials r) = σ.published lib now w channel (.staff credentials r) := by
  unfold Site.published
  dsimp only
  unfold requireRole
  rw [htoken]
  dsimp only
  by_cases hrole : token.role ∈ ["staff", "admin"]
  · rw [if_pos hrole]
    have hrequest {request : Request} (hacts : request.ActsFor σ.office.catalog R) :
        request.messages w σ'.office.catalog σ'.data channel = request.messages w σ.office.catalog σ.data channel :=
      congrFun (h.apart hacts).messages channel
    cases r with
    | getKitchenBoard => rfl
    | _ => exact hrequest hr
  · rw [if_neg hrole]

theorem call {call : ClientCall} (hacts : call.OnBehalfOf lib now σ.office R) (hf : call.Fresh σ.office)
    (hf' : call.Fresh σ'.office) : call.Apart lib now w R σ σ' := by
  have ends (he : Ends R σ (σ.serve lib now w call) (σ'.serve lib now w call))
      (hp : ∀ channel, σ'.published lib now w channel call = σ.published lib now w channel call) :
      call.Apart lib now w R σ σ' := ⟨he.answer, hp, he.own, he.others⟩
  cases call with
  | resolveQr qrToken =>
    obtain ⟨t, ht, hr⟩ := hacts
    refine ends ?_ fun _ => rfl
    simp only [Site.serve, h.resolveQr ht hr]
    exact h.unchanged _
  | customer r => exact ends (h.execute hacts) fun channel => congrFun (h.apart hacts).messages channel
  | staff credentials r =>
    obtain ⟨token, htoken, hr⟩ := hacts
    exact ends (h.guarded htoken (h.serveStaff hr r)) (h.published_staff htoken hr r)
  | admin credentials draws r =>
    obtain ⟨token, htoken, hr⟩ := hacts
    exact ends (h.guarded htoken (h.serveAdmin hr hf hf' r)) fun _ => rfl
  | staffLogin body | adminLogin body | wsTicket slug authorization => exact hacts.elim

end Site.Twin

end Twins

section Reached

variable {n n' : Nat} {owner owner' : Uuid → Uuid} {lib : AccessLibrary} {w : Moment} {R : Uuid}
  {P : Premises owner} {P' : Premises owner'} {req : Fin n → Request} {req' : Fin n' → Request} {h : House n}
  {h' : House n'}

theorem Premises.Reaches.meets (hr : P.Reaches lib.admins req h) (h₀ : P.site.Coherent)
    (hw : h.clients.state.nextUuid ≤ w.nextUuid) : Meets owner w h.site.office.catalog h.site.data := by
  have howned := hr.clients.inv.owned
  rw [hr.kept.synced] at howned
  exact ⟨howned, hr.kept.lawful.uniqueTokens, hr.chained h₀, hr.clients.inv.below.mono hw⟩

/-- In every reachable state a row and the rows that it refers to are of one restaurant, and a call is
answered, and acts, by the rows of the restaurant it acts for and on these alone. -/
theorem restaurants_isolated (hr : P.Reaches lib.admins req h) (hr' : P'.Reaches lib.admins req' h')
    (h₀ : P.site.Coherent) (h₀' : P'.site.Coherent) (hw : h.clients.state.nextUuid ≤ w.nextUuid)
    (hw' : h'.clients.state.nextUuid ≤ w.nextUuid) (hrows : h'.site.select (· == R) = h.site.select (· == R)) :
    h.site.Coherent ∧ ∀ (now : Nat) (call : ClientCall), call.OnBehalfOf lib now h.office R → call.Fresh h.office →
      call.Fresh h'.office → call.Apart lib now w R h.site h'.site := by
  refine ⟨hr.coherent h₀, fun now call hacts hf hf' => ?_⟩
  have htwin : Site.Twin w R owner owner' h.site h'.site :=
    ⟨hr.kept.lawful, hr'.kept.lawful, hr.meets h₀ hw, hr'.meets h₀' hw', hrows⟩
  exact htwin.call hacts hf hf'

end Reached

section Cafe

/-- The café's neighbour across the street is on the platform too. -/
def streetOffice : Office :=
  { cafeOffice with
    restaurants := cafeOffice.restaurants ++ [{ id := 8, slug := "tra", isActive := true, name := "Quán Trà" }]
    tables := cafeOffice.tables ++ [{ id := 9, restaurantId := 8, qrToken := "tra-1", tableNumber := "1" }] }

def street : Premises fun t => if t = 9 then 8 else 1 where
  catalog := streetOffice.catalog
  data := {}
  clock := 0
  appClock := 0
  nextUuid := 10
  owned := by simp [Catalog.Owned, Office.catalog, streetOffice, cafeOffice]
  ok := Data.ok_empty _
  below := empty_below
  office := streetOffice
  issued := [(9, "tra-1"), (2, "ban-1")]
  synced := rfl
  lawful := ⟨by decide, by decide, by decide, by decide, by decide, by decide, by decide, by decide, by decide,
    by decide, by decide⟩
  tokens := ⟨by decide, by decide, by decide⟩

theorem empty_coherent (office : Office) : (⟨office, {}⟩ : Site).Coherent where
  session _ h := by cases h
  order _ h := by cases h
  item _ h := by cases h
  menuItem _ h := by cases h
  call _ h := by cases h
  callTable _ h := by cases h

/-- The first order of the café, with the neighbour or without. -/
theorem restaurants_isolated_cafe : (ClientCall.customer cafeOrder).Apart cafeAccess 0 cafe.moment 1
    (cafePremises.house fun _ : Fin 1 => cafeOrder).site (street.house fun _ : Fin 1 => cafeOrder).site := by
  have hr : cafePremises.Reaches cafeAccess.admins (fun _ : Fin 1 => cafeOrder)
      (cafePremises.house fun _ : Fin 1 => cafeOrder) := .refl
  have hr' : street.Reaches cafeAccess.admins (fun _ : Fin 1 => cafeOrder) (street.house fun _ : Fin 1 => cafeOrder) :=
    .refl
  have hisolated := restaurants_isolated (w := cafe.moment) (R := 1) hr hr' (empty_coherent cafeOffice)
    (empty_coherent streetOffice) (by decide) (by decide) rfl
  exact hisolated.2 0 _ ⟨_, rfl, rfl⟩ trivial trivial

end Cafe

end QOrder
