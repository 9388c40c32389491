import QOrder.RestaurantIsolation

/-! Who may change the rows of a restaurant: the guests of its active tables, and those whom a login
has given a token of one of its users. Nothing takes a token back before it expires. -/

namespace QOrder

open KeyedTable

/-- `bcrypt` and `jose.jwt` with the secret of the deployment; `encode` is told when the token expires. -/
structure Signing where
  tokens : TokenLibrary
  encode : Nat → AccessToken → String
  ttl : Nat
  checkpw : String → String → Except String Bool
  admins : AdminLibrary

namespace Signing

variable (s : Signing)

def logins (now : Nat) : LoginLibrary := ⟨s.checkpw, s.encode (now + s.ttl)⟩

def access (now : Nat) : AccessLibrary := ⟨s.tokens, s.logins now, s.admins⟩

/-- A signed token decodes to its claims until it expires, and not later. -/
def Decodes : Prop := ∀ expire claims now, decodeAccessToken s.tokens now (s.encode expire claims) =
  if now ≤ expire then some claims else none

end Signing

inductive LoginRequest
  | staff (body : StaffLoginRequest)
  | admin (body : AdminLoginRequest)

namespace LoginRequest

def answer (lib : LoginLibrary) (o : Office) : LoginRequest → Except Exn TokenResponse
  | staff body => lib.staffLogin o body
  | admin body => lib.adminLogin o.users body

/-- The request has shown the user's PIN or password, and the rows were such that it could log in. -/
def Proves (checkpw : String → String → Except String Bool) (o : Office) (u : UserRecord) : LoginRequest → Prop
  | staff body => u.role = .staff ∧
    (∃ r ∈ o.restaurants, r.id = u.restaurantId ∧ r.slug = body.restaurantSlug ∧ r.isActive = true) ∧
      ∃ hash, u.pinHash = some hash ∧ checkpw body.pin hash = .ok true
  | admin body => u.AdminOf body.email ∧ ∃ hash, u.passwordHash = some hash ∧ checkpw body.password hash = .ok true

end LoginRequest

def UserRecord.claims (u : UserRecord) : AccessToken := ⟨u.id, u.restaurantId, u.role.value⟩

structure Login where
  request : LoginRequest
  office : Office
  time : Nat
  token : String

/-- The token is the user's, who was active when the login was. -/
structure Login.Of (s : Signing) (l : Login) (u : UserRecord) : Prop where
  user : u ∈ l.office.users
  active : u.isActive = true
  proves : l.request.Proves s.checkpw l.office u
  token : l.token = s.encode (l.time + s.ttl) u.claims

/-- The house with the clock of the tokens, and the logins of the run, the last one first. -/
structure Portal (n : Nat) where
  clock : Nat
  house : House n
  logins : List Login := []

namespace Portal

variable {n : Nat} {owner : Uuid → Uuid}

inductive Step (s : Signing) (owner : Uuid → Uuid) (σ : Portal n) : Portal n → Prop
  | tick (clock : Nat) (h : σ.clock ≤ clock) : Step s owner σ { σ with clock }
  | work (house : House n) (h : σ.house.Step s.admins owner house) : Step s owner σ { σ with house }
  | login (request : LoginRequest) (answer : TokenResponse)
      (h : request.answer (s.logins σ.clock) σ.house.office = .ok answer) :
      Step s owner σ { σ with logins := ⟨request, σ.house.office, σ.clock, answer.accessToken⟩ :: σ.logins }

/-- The runs of the premises, where nobody has logged in yet. -/
def Reaches (s : Signing) (P : Premises owner) (req : Fin n → Request) (σ : Portal n) : Prop :=
  ∃ clock, Relation.ReflTransGen (Step s owner) { clock, house := P.house req } σ

variable (s : Signing) (σ : Portal n)

/-- Without the secret one has the tokens of the logins, and strings that never decode. -/
def Holds (credentials : String) : Prop :=
  credentials ∈ σ.logins.map Login.token ∨ ∀ now, decodeAccessToken s.tokens now credentials = none

/-- What somebody without the secret can send: a customer's call names a token of a table. -/
def Sends : ClientCall → Prop
  | .customer r => r.qrToken ≠ none
  | .staff credentials _ | .admin credentials _ _ => ∀ token, credentials = some token → σ.Holds s token
  | .wsTicket _ authorization => ∀ token, bearerToken authorization = some token → σ.Holds s token
  | .resolveQr _ | .staffLogin _ | .adminLogin _ => True

/-- A login of the user has given the token, which has not expired. -/
def Vouches (credentials : Option String) (u : UserRecord) : Prop :=
  ∃ l ∈ σ.logins, credentials = some l.token ∧ l.Of s u ∧ σ.clock ≤ l.time + s.ttl

end Portal

section LoggingIn

variable {lib : LoginLibrary} {o : Office} {answer : TokenResponse}

theorem LoginLibrary.scalarOneOrNone_some {α : Type} {l : List α} {a : α}
    (h : LoginLibrary.scalarOneOrNone l = .ok (some a)) : a ∈ l := by
  unfold LoginLibrary.scalarOneOrNone at h
  split at h
  · cases h
  · cases h
    exact List.mem_singleton_self a
  · cases h

theorem LoginLibrary.of_textParameter {α : Type} {s : String} {f : String → Except Exn α} {a : α}
    (h : LoginLibrary.textParameter s >>= f = .ok a) : isText s = true ∧ f s = .ok a := by
  unfold LoginLibrary.textParameter at h
  split at h
  next ht => exact ⟨ht, h⟩
  next => cases h

/-- What both logins do with the user that they have found. -/
theorem LoginLibrary.checked_ok {verify : Except Exn Bool} {token : TokenResponse}
    (h : (verify >>= fun b => if b = true then pure token else throw LoginLibrary.invalidCredentials) = .ok answer) :
    verify = .ok true ∧ answer = token := by
  cases verify with
  | error e => cases h
  | ok b =>
    cases b with
    | false => cases h
    | true =>
      cases h
      exact ⟨rfl, rfl⟩

theorem LoginLibrary.verified {plain hashed : String} (h : (lib.checkpw plain hashed).mapError Exn.valueError = .ok true) :
    lib.checkpw plain hashed = .ok true := by
  cases hc : lib.checkpw plain hashed with
  | error e =>
    rw [hc] at h
    cases h
  | ok b =>
    rw [hc] at h
    cases h
    rfl

theorem LoginLibrary.staffLogin_ok {body : StaffLoginRequest} (h : lib.staffLogin o body = .ok answer) :
    ∃ u ∈ o.users, u.isActive = true ∧ (LoginRequest.staff body).Proves lib.checkpw o u ∧
      answer.accessToken = lib.encode u.claims := by
  unfold LoginLibrary.staffLogin at h
  obtain ⟨-, h⟩ := LoginLibrary.of_textParameter h
  split at h
  next => cases h
  next r hr =>
    have hslug := List.find?_some hr
    have hmem := List.mem_of_find?_eq_some hr
    cases hactive : r.isActive with
    | false =>
      rw [hactive] at h
      cases h
    | true =>
      rw [hactive] at h
      cases hone : LoginLibrary.scalarOneOrNone (o.users.filter fun u =>
          u.restaurantId == r.id && u.role == .staff && u.isActive) with
      | error e =>
        rw [hone] at h
        cases h
      | ok found =>
        rw [hone] at h
        cases found with
        | none => cases h
        | some u =>
          have hu := List.mem_filter.mp (LoginLibrary.scalarOneOrNone_some hone)
          simp only [Bool.and_eq_true, beq_iff_eq] at hu hslug
          obtain ⟨huser, ⟨hrestaurant, hrole⟩, huactive⟩ := hu
          cases hhash : u.pinHash with
          | none => simp [bind, Except.bind, hhash] at h
          | some hash =>
            simp only [bind, Except.bind, hhash] at h
            obtain ⟨hok, rfl⟩ := LoginLibrary.checked_ok h
            refine ⟨u, huser, huactive, ⟨hrole, ⟨r, hmem, hrestaurant.symm, hslug, hactive⟩, hash, hhash, ?_⟩, ?_⟩
            · exact LoginLibrary.verified hok
            · rw [LoginLibrary.createAccessToken, ← hrestaurant, UserRecord.claims]

theorem LoginLibrary.adminLogin_ok {body : AdminLoginRequest} (h : lib.adminLogin o.users body = .ok answer) :
    ∃ u ∈ o.users, u.isActive = true ∧ (LoginRequest.admin body).Proves lib.checkpw o u ∧
      answer.accessToken = lib.encode u.claims := by
  unfold LoginLibrary.adminLogin LoginLibrary.activeAdmins at h
  rw [bind_assoc] at h
  obtain ⟨-, h⟩ := LoginLibrary.of_textParameter h
  rw [pure_bind] at h
  cases hone : LoginLibrary.scalarOneOrNone (o.users.filter fun u =>
      u.email == some body.email && u.role == .admin && u.isActive) with
  | error e =>
    rw [hone] at h
    cases h
  | ok found =>
    rw [hone] at h
    cases found with
    | none => cases h
    | some u =>
      have hu := List.mem_filter.mp (LoginLibrary.scalarOneOrNone_some hone)
      simp only [Bool.and_eq_true, beq_iff_eq] at hu
      obtain ⟨huser, ⟨hemail, hrole⟩, huactive⟩ := hu
      cases hhash : u.passwordHash with
      | none => simp [bind, Except.bind, hhash] at h
      | some hash =>
        simp only [bind, Except.bind, hhash] at h
        obtain ⟨hok, rfl⟩ := LoginLibrary.checked_ok h
        exact ⟨u, huser, huactive, ⟨⟨hrole, hemail⟩, hash, hhash, LoginLibrary.verified hok⟩, rfl⟩

theorem LoginRequest.answer_ok {request : LoginRequest} (h : request.answer lib o = .ok answer) :
    ∃ u ∈ o.users, u.isActive = true ∧ request.Proves lib.checkpw o u ∧ answer.accessToken = lib.encode u.claims := by
  cases request with
  | staff body => exact LoginLibrary.staffLogin_ok h
  | admin body => exact LoginLibrary.adminLogin_ok h

end LoggingIn

namespace Portal

variable {n : Nat} {owner : Uuid → Uuid} {s : Signing} {σ σ' : Portal n} {P : Premises owner} {req : Fin n → Request}

/-- Every token has a user, and none has been given later than now. -/
structure Inv (s : Signing) (σ : Portal n) : Prop where
  past : ∀ l ∈ σ.logins, l.time ≤ σ.clock
  users : ∀ l ∈ σ.logins, ∃ u, l.Of s u

theorem Inv.step (h : σ.Inv s) (hs : σ.Step s owner σ') : σ'.Inv s := by
  cases hs with
  | tick clock hle => exact ⟨fun l hl => (h.past l hl).trans hle, h.users⟩
  | work house hw => exact ⟨h.past, h.users⟩
  | login request answer ha =>
    obtain ⟨u, huser, hactive, hproves, htoken⟩ := LoginRequest.answer_ok ha
    refine ⟨fun l hl => ?_, fun l hl => ?_⟩
    · rcases List.mem_cons.mp hl with rfl | hl
      · exact le_refl _
      · exact h.past l hl
    · rcases List.mem_cons.mp hl with rfl | hl
      · exact ⟨u, huser, hactive, hproves, htoken⟩
      · exact h.users l hl

theorem Reaches.inv (hr : σ.Reaches s P req) : σ.Inv s := by
  obtain ⟨clock, hr⟩ := hr
  induction hr with
  | refl => exact ⟨fun l hl => absurd hl List.not_mem_nil, fun l hl => absurd hl List.not_mem_nil⟩
  | tail _ hs ih => exact ih.step hs

theorem Reaches.house (hr : σ.Reaches s P req) : P.Reaches s.admins req σ.house := by
  obtain ⟨clock, hr⟩ := hr
  induction hr with
  | refl => exact .refl
  | tail _ hs ih =>
    cases hs with
    | tick clock hle => exact ih
    | work house hw => exact ih.tail hw
    | login request answer ha => exact ih

variable {credentials : Option String} {claims : AccessToken}

/-- Whoever is let in has a token of a login. -/
theorem Inv.decodes (h : σ.Inv s) (hd : s.Decodes) (hk : ∀ token, credentials = some token → σ.Holds s token) :
    getCurrentUser s.tokens σ.clock credentials = .ok claims ↔
      ∃ u, σ.Vouches s credentials u ∧ claims = u.claims := by
  constructor
  · intro hok
    cases credentials with
    | none => cases hok
    | some token =>
      unfold getCurrentUser at hok
      dsimp only at hok
      rcases hk token rfl with hissued | hnone
      · obtain ⟨l, hl, rfl⟩ := List.mem_map.mp hissued
        obtain ⟨u, hu⟩ := h.users l hl
        rw [hu.token, hd] at hok
        by_cases hle : σ.clock ≤ l.time + s.ttl
        · rw [if_pos hle] at hok
          cases hok
          exact ⟨u, ⟨l, hl, rfl, hu, hle⟩, rfl⟩
        · rw [if_neg hle] at hok
          cases hok
      · rw [hnone] at hok
        cases hok
  · rintro ⟨u, ⟨l, hl, rfl, hu, hle⟩, rfl⟩
    unfold getCurrentUser
    dsimp only
    rw [hu.token, hd, if_pos hle]

theorem Inv.admits (h : σ.Inv s) (hd : s.Decodes) (hk : ∀ token, credentials = some token → σ.Holds s token)
    {roles : List String} : requireRole s.tokens σ.clock roles credentials = .ok claims ↔
      ∃ u, σ.Vouches s credentials u ∧ claims = u.claims ∧ u.role.value ∈ roles := by
  unfold requireRole
  constructor
  · intro hok
    cases hcurrent : getCurrentUser s.tokens σ.clock credentials with
    | error e =>
      rw [hcurrent] at hok
      cases hok
    | ok current =>
      obtain ⟨u, hu, rfl⟩ := (h.decodes hd hk).mp hcurrent
      rw [hcurrent] at hok
      dsimp only at hok
      by_cases hrole : u.claims.role ∈ roles
      · rw [if_pos hrole] at hok
        cases hok
        exact ⟨u, hu, rfl, hrole⟩
      · rw [if_neg hrole] at hok
        cases hok
  · rintro ⟨u, hu, rfl, hrole⟩
    rw [(h.decodes hd hk).mpr ⟨u, hu, rfl⟩]
    dsimp only
    rw [if_pos]
    exact hrole

end Portal

end QOrder
