import QOrder.SiteCalls

/-! A restaurant that is switched off. The tokens of its tables, the login of its staff and the
tickets of its kitchen look at the switch; a JWT and the login of an administrator do not. -/

namespace QOrder

open KeyedTable Concurrency

/-- What refuses a call of a restaurant that is switched off: the switch, where it is looked at,
and elsewhere a role, a password or rows that would refuse it anyway. -/
def ClientCall.Hopeless (lib : AccessLibrary) (now : Nat) (w : Moment) (σ : Site) : ClientCall → Prop
  | resolveQr _ | customer _ | staffLogin _ | wsTicket _ _ => True
  | staff credentials r => ∀ token, getCurrentUser lib.tokens now credentials = .ok token →
    token.role ∈ ["staff", "admin"] → ¬ r.Serves w σ token.restaurantId
  | admin credentials draws r => ∀ token, getCurrentUser lib.tokens now credentials = .ok token →
    token.role ∈ ["admin"] → ¬ r.Serves lib.admins token.user draws σ.office
  | adminLogin body => ∀ admin, LoginLibrary.activeAdmins σ.office.users body.email = .ok [admin] →
    ¬ admin.Verifies lib.logins body.password

section Switched

variable {lib : AccessLibrary} {now : Nat} {w : Moment} {o : Office} {σ : Site} {restaurantId : Uuid} {qrToken : String}

/-- The restaurant is there, and switched off. -/
def Office.Off (o : Office) (restaurantId : Uuid) : Prop :=
  ∃ r ∈ o.restaurants, r.id = restaurantId ∧ r.isActive = false

theorem Office.Off.inactive (h : o.Off restaurantId) (hl : o.Lawful) :
    (o.restaurants.find? fun r => r.id == restaurantId && r.isActive) = none := by
  obtain ⟨r, hr, hid, hoff⟩ := h
  refine List.find?_eq_none.mpr fun r' hr' hp => ?_
  simp only [Bool.and_eq_true, beq_iff_eq] at hp
  rw [eq_of_key_eq hl.restaurantIds hr' hr (hp.1.trans hid.symm), hoff] at hp
  cases hp.2

/-- No token of its tables resolves. -/
theorem Office.Off.unresolved (h : o.Off restaurantId) (hl : o.Lawful) {t : TableRecord} (ht : t ∈ o.tables)
    (hr : t.restaurantId = restaurantId) : ∃ e, o.catalog.resolve t.qrToken = .error e := by
  unfold Catalog.resolve
  rw [activeTable_eq]
  cases hfind : o.tables.find? fun x => x.qrToken == t.qrToken && x.isActive with
  | none => exact ⟨_, rfl⟩
  | some x =>
    have hp := List.find?_some hfind
    simp only [Bool.and_eq_true, beq_iff_eq] at hp
    have hx : x = t := by
      by_contra hne
      have hid : t.id ≠ x.id := fun hid => hne (eq_of_key_eq hl.tableIds (List.mem_of_find?_eq_some hfind) ht hid.symm)
      exact (tableConflict_eq_false.mp (hl.tables x (List.mem_of_find?_eq_some hfind)) t ht hid).1 hp.1.symm
    dsimp only [Option.map_some]
    rw [activeRestaurant_eq, hx, hr, h.inactive hl]
    exact ⟨_, rfl⟩

theorem Office.Off.slug (h : o.Off restaurantId) (hl : o.Lawful) {slug : String}
    (hs : ∃ r ∈ o.restaurants, r.slug = slug ∧ r.id = restaurantId) :
    ∃ r, (o.restaurants.find? fun r => r.slug == slug) = some r ∧ r.isActive = false := by
  obtain ⟨r, hr, hslug, hid⟩ := hs
  obtain ⟨r', hr', hid', hoff⟩ := h
  have hsame : r = r' := eq_of_key_eq hl.restaurantIds hr hr' (hid.trans hid'.symm)
  refine ⟨r', ?_, hoff⟩
  cases hfind : o.restaurants.find? fun r => r.slug == slug with
  | none =>
    have hnone := List.find?_eq_none.mp hfind r hr
    simp [hslug] at hnone
  | some x =>
    have hx := List.find?_some hfind
    rw [beq_iff_eq] at hx
    rw [hl.slugs x (List.mem_of_find?_eq_some hfind) r hr (hx.trans hslug.symm), hsame]

theorem Office.Off.staffLogin (h : o.Off restaurantId) (hl : o.Lawful) (logins : LoginLibrary) {body : StaffLoginRequest}
    (hs : ∃ r ∈ o.restaurants, r.slug = body.restaurantSlug ∧ r.id = restaurantId) :
    ∃ e, logins.staffLogin o body = .error e := by
  obtain ⟨r, hfind, hoff⟩ := h.slug hl hs
  unfold LoginLibrary.staffLogin LoginLibrary.textParameter
  cases isText body.restaurantSlug with
  | false => exact ⟨_, rfl⟩
  | true =>
    dsimp only [bind, Except.bind]
    rw [if_pos rfl]
    dsimp only
    rw [hfind]
    dsimp only
    rw [hoff]
    exact ⟨_, rfl⟩

theorem Office.Off.createWsTicket (h : o.Off restaurantId) (hl : o.Lawful) (tokens : TokenLibrary) {slug : String}
    (hs : ∃ r ∈ o.restaurants, r.slug = slug ∧ r.id = restaurantId) (authorization : Option String) :
    ∃ e, createWsTicket tokens now o.accounts slug authorization = .error e := by
  obtain ⟨r, hfind, hoff⟩ := h.slug hl hs
  have haccounts : (o.accounts.restaurants.find? fun r => r.slug = slug) = some r.toRestaurantRow := by
    rw [Office.accounts, List.find?_map]
    have hslug : ((fun r : RestaurantRow => decide (r.slug = slug)) ∘ fun r : RestaurantRecord => r.toRestaurantRow) =
        fun r => r.slug == slug := by
      funext r
      rfl
    rw [hslug, hfind]
    rfl
  unfold QOrder.createWsTicket
  rw [haccounts]
  dsimp only
  rw [if_pos hoff]
  exact ⟨_, rfl⟩

/-- The login of an administrator, whichever restaurants are on. -/
theorem LoginLibrary.adminLogin_refused {logins : LoginLibrary} {users : List UserRecord} {body : AdminLoginRequest} :
    (∃ e, logins.adminLogin users body = .error e) ↔
      ∀ admin, activeAdmins users body.email = .ok [admin] → ¬ admin.Verifies logins body.password := by
  rcases hadmins : activeAdmins users body.email with e | - | ⟨admin, - | ⟨other, rest⟩⟩
  · refine iff_of_true ⟨e, ?_⟩ nofun
    unfold adminLogin
    rw [hadmins]
    rfl
  · refine iff_of_true ⟨invalidCredentials, ?_⟩ nofun
    unfold adminLogin
    rw [hadmins]
    rfl
  · have hone : (∀ a, (.ok [admin] : Except Exn (List UserRecord)) = .ok [a] → ¬ a.Verifies logins body.password) ↔
        ¬ admin.Verifies logins body.password := by
      simp
    rw [hone]
    cases hhash : admin.passwordHash with
    | none =>
      refine iff_of_true ⟨invalidCredentials, ?_⟩ ?_
      · unfold adminLogin
        rw [hadmins]
        dsimp only [scalarOneOrNone, bind, Except.bind]
        rw [hhash]
        rfl
      · rintro ⟨hash, hsome, -⟩
        rw [hhash] at hsome
        cases hsome
    | some hash =>
      have hverifies : admin.Verifies logins body.password ↔ logins.checkpw body.password hash = .ok true := by
        simp [UserRecord.Verifies, hhash]
      rw [hverifies, adminLogin_checked logins hadmins hhash]
      cases logins.checkpw body.password hash with
      | error e => exact iff_of_true ⟨_, rfl⟩ nofun
      | ok verified => cases verified <;> simp [Except.mapError, Except.bind]
  · refine iff_of_true ⟨.multipleResultsFound, ?_⟩ (by simp)
    unfold adminLogin
    rw [hadmins]
    rfl

end Switched

section Reached

variable {n : Nat} {owner : Uuid → Uuid} {P : Premises owner} {req : Fin n → Request} {h : House n}
  {lib : AccessLibrary} {now : Nat} {w : Moment} {restaurantId : Uuid} {call : ClientCall}

/-- The rows that a request finds when it is alone. -/
def House.site (h : House n) : Site := ⟨h.office, h.clients.state.data⟩

theorem turned_answer {α : Type} {σ : Site} {answer : Except Exn α} {f : α → CallAnswer}
    (hf : ∀ a, ¬ Rejects (.ok (f a))) : σ.Turned ((answer.mapError .exn).map f, σ) ↔ ∃ e, answer = .error e := by
  cases answer with
  | ok a => exact iff_of_false (fun hno => hf a hno.1) nofun
  | error e => exact iff_of_true (Site.turned_error (.exn e)) ⟨e, rfl⟩

/-- In every reachable state a call for a restaurant that is off is refused exactly where the switch
is looked at, or where it would be refused anyway. -/
theorem switched_off (hr : P.Reaches lib.admins req h) (hoff : h.office.Off restaurantId)
    (hacts : call.ActsFor lib now h.office restaurantId) :
    call.Refused lib now w h.site ↔ call.Hopeless lib now w h.site := by
  have hl : h.office.Lawful := hr.kept.lawful
  have hd : h.site.data.Ok owner := hr.clients.inv.ok
  rw [ClientCall.refused_iff]
  cases call with
  | resolveQr qrToken =>
    obtain ⟨t, ht, rfl, hrestaurant⟩ := hacts
    obtain ⟨e, he⟩ := hoff.unresolved hl ht hrestaurant
    exact iff_of_true ((turned_answer fun _ => id).mpr ⟨e, Office.resolveQr_error he⟩) trivial
  | customer r =>
    obtain ⟨t, ht, hq, hrestaurant⟩ := hacts
    obtain ⟨e, he⟩ := hoff.unresolved hl ht hrestaurant
    exact iff_of_true (Site.turned_customer he hq) trivial
  | staff credentials r =>
    obtain ⟨token, htoken, rfl⟩ := hacts
    exact Site.turned_guarded htoken (Site.turned_serveStaff hd hl.tableIds token.user r)
  | admin credentials draws r =>
    obtain ⟨token, htoken, rfl⟩ := hacts
    obtain ⟨row, hrow, hid, -⟩ := hoff
    exact Site.turned_guarded htoken (Site.turned_serveAdmin hl ⟨row, hrow, hid⟩ draws r)
  | staffLogin body => exact iff_of_true ((turned_answer fun _ => id).mpr (hoff.staffLogin hl lib.logins hacts)) trivial
  | adminLogin body => exact (turned_answer fun _ => id).trans LoginLibrary.adminLogin_refused
  | wsTicket restaurantSlug authorization =>
    exact iff_of_true ((turned_answer fun _ => id).mpr (hoff.createWsTicket hl lib.tokens hacts authorization)) trivial

end Reached

section Cafe

/-- The operator has switched the café off. -/
def closedCafe : House 1 := (cafePremises.house fun _ => cafeOrder).edit (cafeOffice.switch 1 false) []

theorem closedCafe_reached : cafePremises.Reaches cafeLibrary (fun _ : Fin 1 => cafeOrder) closedCafe :=
  .single (.switch 1 false)

theorem closedCafe_off : closedCafe.office.Off 1 := ⟨_, List.mem_singleton_self _, rfl, rfl⟩

def cafeAccess : AccessLibrary := ⟨TicketDesk.cafeTokens, plainHashes, cafeLibrary⟩

/-- The board, asked for with the token that a member of the staff has been given before. -/
def cafeBoard : ClientCall := .staff (some "jwt") .getKitchenBoard

theorem cafeBoard_token : getCurrentUser TicketDesk.cafeTokens 0 (some "jwt") = .ok ⟨4, 1, "staff"⟩ := by
  decide +kernel

theorem cafeBoard_acts : cafeBoard.ActsFor cafeAccess 0 closedCafe.office 1 := ⟨_, cafeBoard_token, rfl⟩

theorem cafePage_acts : (ClientCall.resolveQr "ban-1").ActsFor cafeAccess 0 closedCafe.office 1 :=
  ⟨_, List.mem_singleton_self _, rfl, rfl⟩

theorem switched_off_cafe : (ClientCall.resolveQr "ban-1").Refused cafeAccess 0 cafe.moment closedCafe.site ∧
    ¬ cafeBoard.Refused cafeAccess 0 cafe.moment closedCafe.site := by
  constructor
  · exact (switched_off closedCafe_reached closedCafe_off cafePage_acts).mpr trivial
  · intro hrefused
    have hhopeless := (switched_off closedCafe_reached closedCafe_off cafeBoard_acts).mp hrefused
    exact hhopeless _ cafeBoard_token (by decide) trivial

theorem switched_off_fails : ¬ ∀ (P : Premises fun _ => 1) (req : Fin 1 → Request) (h : House 1) (lib : AccessLibrary)
    (now : Nat) (w : Moment) (restaurantId : Uuid) (call : ClientCall), P.Reaches lib.admins req h →
    h.office.Off restaurantId → call.ActsFor lib now h.office restaurantId → call.Refused lib now w h.site := by
  intro hall
  have hrefused := hall cafePremises (fun _ => cafeOrder) closedCafe cafeAccess 0 cafe.moment 1 cafeBoard
    closedCafe_reached closedCafe_off cafeBoard_acts
  have hrole : requireRole cafeAccess.tokens 0 ["staff", "admin"] (some "jwt") = .ok ⟨4, 1, "staff"⟩ := by
    have htoken : getCurrentUser cafeAccess.tokens 0 (some "jwt") = _ := cafeBoard_token
    rw [requireRole, htoken]
    rfl
  have hserve : (closedCafe.site.serve cafeAccess 0 cafe.moment cafeBoard).1 =
      .ok (.board (Kitchen.getKitchenBoard closedCafe.site.data 1)) := by
    unfold cafeBoard Site.serve Site.guarded
    dsimp only
    rw [hrole]
    rfl
  have hrejects := hrefused.1
  rw [hserve] at hrejects
  exact hrejects

end Cafe

end QOrder
