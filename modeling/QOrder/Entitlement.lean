import QOrder.Credentials

/-! What the guards are worth: a call that changes a row comes from a guest of an active table, or from
somebody whom a login has given a token. -/

namespace QOrder

open KeyedTable

namespace Portal

variable {n : Nat} {owner : Uuid → Uuid}

section Rights

variable (s : Signing) (σ : Portal n)

/-- The call may change rows of the restaurant. -/
def Entitles (restaurantId : Uuid) : ClientCall → Prop
  | .customer r => (∃ t ∈ σ.house.office.tables, r.qrToken = some t.qrToken ∧ t.isActive = true ∧
      t.restaurantId = restaurantId) ∧ ∃ x ∈ σ.house.office.restaurants, x.id = restaurantId ∧ x.isActive = true
  | .staff credentials _ => ∃ u, σ.Vouches s credentials u ∧ u.restaurantId = restaurantId
  | .admin credentials _ _ => ∃ u, σ.Vouches s credentials u ∧ u.restaurantId = restaurantId ∧ u.role = .admin
  | _ => False

/-- The call changes no row and publishes nothing. -/
def Idle (w : Moment) (call : ClientCall) : Prop :=
  (σ.house.site.serve (s.access σ.clock) σ.clock w call).2 = σ.house.site ∧
    ∀ channel, σ.house.site.published (s.access σ.clock) σ.clock w channel call = []

/-- Outside the restaurant the call changes no row. -/
def KeepsOthers (w : Moment) (call : ClientCall) (restaurantId : Uuid) : Prop :=
  (σ.house.site.serve (s.access σ.clock) σ.clock w call).2.select (· != restaurantId) =
    σ.house.site.select (· != restaurantId)

end Rights

variable {s : Signing} {σ : Portal n} {P : Premises owner} {req : Fin n → Request} {w : Moment} {r : Request}
  {credentials : Option String}

theorem Request.actsFor_of_token {c : Catalog} {qrToken : String} {t : Table} (hq : r.qrToken = some qrToken)
    (ht : c.activeTable qrToken = some t) : r.ActsFor c t.restaurantId := by
  cases r with
  | getSessionSnapshot | createOrder | cancelItemCustomer | callStaff | wsCustomer =>
    cases hq
    exact ⟨t, ht, rfl⟩
  | _ => cases hq

theorem idle_customer {qrToken : String} {e : Exn} (he : σ.house.office.catalog.resolve qrToken = .error e)
    (hq : r.qrToken = some qrToken) : σ.Idle s w (.customer r) := by
  have hsame : ((w.solo σ.house.office.catalog σ.house.site.data).run r.handler).2 =
      w.solo σ.house.office.catalog σ.house.site.data := by
    rcases Solo.run_unresolved (s := w.solo σ.house.office.catalog σ.house.site.data) he hq with hrun | hrun
    · rw [hrun]
    · rw [hrun]
  refine ⟨?_, fun channel => ?_⟩
  · have heffect : r.effect w σ.house.office.catalog σ.house.site.data = σ.house.site.data := by
      rw [Request.effect_solo, hsame]
      rfl
    exact congrArg (Site.mk _) heffect
  · have hmessages : r.messages w σ.house.office.catalog σ.house.site.data channel = [] := by
      rw [Request.messages_solo, hsame]
      rfl
    exact hmessages

/-- A customer's call does nothing, or the token is one of an active table. -/
theorem entitled_customer (h : r.qrToken ≠ none) : σ.Idle s w (.customer r) ∨
    ∃ restaurantId, σ.Entitles s restaurantId (.customer r) ∧ r.ActsFor σ.house.office.catalog restaurantId := by
  obtain ⟨qrToken, hq⟩ := Option.ne_none_iff_exists'.mp h
  cases hres : σ.house.office.catalog.resolve qrToken with
  | error e => exact .inl (idle_customer hres hq)
  | ok found =>
    obtain ⟨table, restaurant⟩ := found
    obtain ⟨htable, hrestaurant⟩ := Catalog.resolve_ok_iff.mp hres
    refine .inr ⟨table.restaurantId, ⟨?_, ?_⟩, Request.actsFor_of_token hq htable⟩
    · rw [Office.activeTable_eq, Option.map_eq_some_iff] at htable
      obtain ⟨row, hrow, rfl⟩ := htable
      have hfound := List.find?_some hrow
      simp only [Bool.and_eq_true, beq_iff_eq] at hfound
      exact ⟨row, List.mem_of_find?_eq_some hrow, hfound.1 ▸ hq, hfound.2, rfl⟩
    · rw [Office.activeRestaurant_eq, Option.map_eq_some_iff] at hrestaurant
      obtain ⟨row, hrow, -⟩ := hrestaurant
      have hfound := List.find?_some hrow
      simp only [Bool.and_eq_true, beq_iff_eq] at hfound
      exact ⟨row, List.mem_of_find?_eq_some hrow, hfound.1, hfound.2⟩

/-- The guard lets the call through with the claims of a user, or the rows stay as they are. -/
theorem Inv.guarded (h : σ.Inv s) (hd : s.Decodes) (roles : List String) (hk : ∀ token, credentials = some token → σ.Holds s token) :
    (∃ u, σ.Vouches s credentials u ∧ u.role.value ∈ roles ∧
      requireRole s.tokens σ.clock roles credentials = .ok u.claims) ∨
      ∃ e, requireRole s.tokens σ.clock roles credentials = .error e := by
  cases hrole : requireRole s.tokens σ.clock roles credentials with
  | error e => exact .inr ⟨e, rfl⟩
  | ok claims =>
    obtain ⟨u, hu, rfl, hmem⟩ := (h.admits hd hk).mp hrole
    exact .inl ⟨u, hu, hmem, rfl⟩

/-- A call of somebody without the secret changes nothing, or it is entitled to a restaurant. -/
theorem Inv.entitled (h : σ.Inv s) (hd : s.Decodes) (call : ClientCall) (hsends : σ.Sends s call) :
    σ.Idle s w call ∨ ∃ restaurantId, σ.Entitles s restaurantId call ∧
      call.OnBehalfOf (s.access σ.clock) σ.clock σ.house.office restaurantId := by
  cases call with
  | resolveQr | staffLogin | adminLogin | wsTicket => exact .inl ⟨rfl, fun _ => rfl⟩
  | customer r => exact entitled_customer hsends
  | staff credentials r =>
    rcases h.guarded hd ["staff", "admin"] hsends with ⟨u, hu, -, -⟩ | ⟨e, he⟩
    · exact .inr ⟨u.restaurantId, ⟨u, hu, rfl⟩, u.claims, (h.decodes hd hsends).mpr ⟨u, hu, rfl⟩, rfl⟩
    · have hguard : requireRole (s.access σ.clock).tokens σ.clock ["staff", "admin"] credentials = .error e := he
      refine .inl ⟨?_, fun channel => ?_⟩
      · rw [Site.serve, Site.guarded, hguard]
      · rw [Site.published, hguard]
  | admin credentials draws r =>
    rcases h.guarded hd ["admin"] hsends with ⟨u, hu, hmem, -⟩ | ⟨e, he⟩
    · have hrole : u.role = .admin := by
        cases hr : u.role with
        | admin => rfl
        | staff =>
          rw [hr] at hmem
          exact absurd hmem (by decide)
      exact .inr ⟨u.restaurantId, ⟨u, hu, rfl, hrole⟩, u.claims, (h.decodes hd hsends).mpr ⟨u, hu, rfl⟩, rfl⟩
    · have hguard : requireRole (s.access σ.clock).tokens σ.clock ["admin"] credentials = .error e := he
      refine .inl ⟨?_, fun _ => rfl⟩
      rw [Site.serve, Site.guarded, hguard]

/-- Whoever has no secret gets through a guard exactly with the token of a login that has not expired, as
the user that it was, whatever has become of the user since. A call that changes a row or publishes
names an active table, or has such a token, and changes rows of that restaurant alone. -/
theorem changes_entitled (hr : σ.Reaches s P req) (hd : s.Decodes) (h₀ : P.site.Coherent) :
    (∀ roles credentials claims, (∀ token, credentials = some token → σ.Holds s token) →
      (requireRole s.tokens σ.clock roles credentials = .ok claims ↔
        ∃ u, σ.Vouches s credentials u ∧ claims = u.claims ∧ u.role.value ∈ roles)) ∧
    ∀ (w : Moment) (call : ClientCall), σ.house.clients.state.nextUuid ≤ w.nextUuid → σ.Sends s call →
      call.Fresh σ.house.office → σ.Idle s w call ∨
        ∃ restaurantId, σ.Entitles s restaurantId call ∧ σ.KeepsOthers s w call restaurantId := by
  refine ⟨fun roles credentials claims hk => hr.inv.admits hd hk, fun w call hw hsends hf => ?_⟩
  rcases hr.inv.entitled hd call hsends with hidle | ⟨restaurantId, hentitles, hacts⟩
  · exact .inl hidle
  · have hreached : P.Reaches (s.access σ.clock).admins req σ.house := hr.house
    have hmeets := hreached.meets h₀ hw
    have htwin : Site.Twin w restaurantId owner owner σ.house.site σ.house.site :=
      ⟨hreached.kept.lawful, hreached.kept.lawful, hmeets, hmeets, rfl⟩
    exact .inr ⟨restaurantId, hentitles, (htwin.call hacts hf hf).others⟩

end Portal

section Cafe

def unary (k : Nat) : List Char := List.replicate k 'a' ++ ['.']

def readUnary (l : List Char) : Nat × List Char := ((l.takeWhile (· == 'a')).length, (l.dropWhile (· == 'a')).drop 1)

theorem readUnary_append (k : Nat) (l : List Char) : readUnary (unary k ++ l) = (k, l) := by
  induction k with
  | zero => rfl
  | succ k ih =>
    have hcons : unary (k + 1) ++ l = 'a' :: (unary k ++ l) := rfl
    rw [readUnary, Prod.mk.injEq] at ih
    rw [hcons, readUnary, List.takeWhile_cons_of_pos (by decide), List.dropWhile_cons_of_pos (by decide),
      List.length_cons, ih.1, ih.2]

/-- Tokens in the clear, that nobody can make up. -/
def plainSigning : Signing where
  tokens :=
    { decode := fun now token =>
        let expire := readUnary token.toList
        let sub := readUnary expire.2
        let restaurantId := readUnary sub.2
        if now ≤ expire.1 then some fun claim =>
          if claim = "sub" then some (String.ofList (unary sub.1))
          else if claim = "restaurant_id" then some (String.ofList (unary restaurantId.1))
          else if claim = "role" then some (String.ofList restaurantId.2) else none
        else none
      uuid := fun s => some (readUnary s.toList).1 }
  encode expire claims := String.ofList
    (unary expire ++ (unary claims.sub ++ (unary claims.restaurantId ++ claims.role.toList)))
  ttl := 43200
  checkpw plain hashed := .ok (plain == "1234" && hashed == "hash")
  admins := cafeLibrary

theorem plainSigning_decodes : plainSigning.Decodes := by
  intro expire claims now
  have hread (k : Nat) : (readUnary (unary k)).1 = k := by
    have hnil := readUnary_append k []
    rw [List.append_nil] at hnil
    rw [hnil]
  unfold decodeAccessToken plainSigning
  simp only [String.toList_ofList, readUnary_append]
  by_cases hle : now ≤ expire
  · simp [hle, hread]
  · simp [hle]

def cafeToken : String := plainSigning.encode 43200 ⟨4, 1, "staff"⟩

/-- The cook has logged in a minute ago. -/
def cafePortal : Portal 1 where
  clock := 60
  house := cafePremises.house fun _ => cafeOrder
  logins := [⟨.staff ⟨"cafe", "1234"⟩, cafeOffice, 0, cafeToken⟩]

theorem cafePortal_reached : cafePortal.Reaches plainSigning cafePremises fun _ => cafeOrder := by
  have hanswer : LoginRequest.answer (plainSigning.logins 0) cafeOffice (.staff ⟨"cafe", "1234"⟩) =
      .ok { accessToken := cafeToken } := rfl
  exact ⟨0, .tail (.single (.login _ _ hanswer)) (.tick 60 (by decide))⟩

theorem changes_entitled_cafe :
    requireRole plainSigning.tokens 60 ["staff", "admin"] (some cafeToken) = .ok ⟨4, 1, "staff"⟩ ∧
      (cafePortal.Idle plainSigning cafe.moment (.staff (some cafeToken) (.openTable 2)) ∨
        ∃ restaurantId, cafePortal.Entitles plainSigning restaurantId (.staff (some cafeToken) (.openTable 2)) ∧
          cafePortal.KeepsOthers plainSigning cafe.moment (.staff (some cafeToken) (.openTable 2)) restaurantId) := by
  have hmem : cafeToken ∈ cafePortal.logins.map Login.token := List.mem_singleton_self _
  have hsends : ∀ token, some cafeToken = some token → cafePortal.Holds plainSigning token := by
    intro token ht
    obtain rfl := Option.some.inj ht
    exact .inl hmem
  have hguard := Portal.changes_entitled cafePortal_reached plainSigning_decodes (empty_coherent cafeOffice)
  refine ⟨(hguard.1 _ _ _ hsends).mpr ?_, hguard.2 _ _ (by decide) hsends trivial⟩
  refine ⟨{ id := 4, restaurantId := 1, role := .staff, pinHash := some "hash" }, ?_, rfl, by decide⟩
  refine ⟨_, List.mem_singleton_self _, rfl, ⟨List.mem_singleton_self _, rfl, ?_, rfl⟩, by decide⟩
  exact ⟨rfl, ⟨_, List.mem_singleton_self _, rfl, rfl, rfl⟩, "hash", rfl, rfl⟩

end Cafe

end QOrder
