import QOrder.Office

/-! Logging in. Staff name their restaurant and share its PIN; administrators give an email
and a password, and the lookup goes by the email alone. -/

namespace QOrder

open KeyedTable

structure StaffLoginRequest where
  restaurantSlug : String
  pin : String

structure AdminLoginRequest where
  email : String
  password : String

structure TokenResponse where
  accessToken : String
  tokenType : String := "bearer"
  deriving DecidableEq, Repr

/-- `bcrypt.checkpw`, with the message of the `ValueError` that it may raise, and
`jose.jwt.encode` with the deployment's secret and an expiry. -/
structure LoginLibrary where
  checkpw : String → String → Except String Bool
  encode : AccessToken → String

def UserRole.value : UserRole → String
  | .staff => "staff"
  | .admin => "admin"

/-- PostgreSQL's texts have no NUL character. -/
def isText (s : String) : Bool := s.toList.all fun c => c.toNat ≠ 0

namespace LoginLibrary

/-- `scalar_one_or_none` of the rows that a query finds. -/
def scalarOneOrNone {α : Type} : List α → Except Exn (Option α)
  | [] => .ok none
  | [a] => .ok (some a)
  | _ => .error .multipleResultsFound

/-- The database raises on a parameter that is no text of PostgreSQL's. -/
def textParameter (s : String) : Except Exn String := if isText s then .ok s else .error (.db .dataError)

variable (lib : LoginLibrary)

def verifyPassword (plain hashed : String) : Except Exn Bool := (lib.checkpw plain hashed).mapError .valueError

def verifyPin (pin hashed : String) : Except Exn Bool := (lib.checkpw pin hashed).mapError .valueError

def createAccessToken (userId : Uuid) (role : String) (restaurantId : Uuid) : String :=
  lib.encode ⟨userId, restaurantId, role⟩

def invalidCredentials : Exn := .http 401 "Invalid credentials"

def staffLogin (o : Office) (body : StaffLoginRequest) : Except Exn TokenResponse := do
  let slug ← textParameter body.restaurantSlug
  match o.restaurants.find? fun r => r.slug == slug with
  | none => throw (.http 404 "Restaurant not found or not active")
  | some restaurant =>
    if !restaurant.isActive then throw (.http 404 "Restaurant not found or not active")
    match ← scalarOneOrNone (o.users.filter fun u =>
        u.restaurantId == restaurant.id && u.role == .staff && u.isActive) with
    | none => throw invalidCredentials
    | some staffUser =>
      match staffUser.pinHash with
      | none => throw invalidCredentials
      | some pinHash =>
        if ← lib.verifyPin body.pin pinHash then
          return { accessToken := lib.createAccessToken staffUser.id staffUser.role.value restaurant.id }
        else throw invalidCredentials

/-- The rows that the query of the email finds. -/
def activeAdmins (users : List UserRecord) (email : String) : Except Exn (List UserRecord) := do
  let email ← textParameter email
  return users.filter fun u => u.email == some email && u.role == .admin && u.isActive

def adminLogin (users : List UserRecord) (body : AdminLoginRequest) : Except Exn TokenResponse := do
  let rows ← activeAdmins users body.email
  match ← scalarOneOrNone rows with
  | none => throw invalidCredentials
  | some adminUser =>
    match adminUser.passwordHash with
    | none => throw invalidCredentials
    | some passwordHash =>
      if ← lib.verifyPassword body.password passwordHash then
        return { accessToken := lib.createAccessToken adminUser.id adminUser.role.value adminUser.restaurantId }
      else throw invalidCredentials

end LoginLibrary

/-- A users table under the constraints of the schema. -/
structure UsersTable where
  rows : List UserRecord
  ids : UniqueKeys rows
  emails : ∀ u ∈ rows, ∀ v ∈ rows, u.restaurantId = v.restaurantId → u.email = v.email → u.email ≠ none → u = v
  credentials : ∀ u ∈ rows, u.role = .admin ∧ u.email ≠ none ∧ u.passwordHash ≠ none ∨
    u.role = .staff ∧ u.pinHash ≠ none

section Admins

variable {lib : LoginLibrary} {table : UsersTable} {body : AdminLoginRequest} {u : UserRecord}

def UserRecord.AdminOf (u : UserRecord) (email : String) : Prop := u.role = .admin ∧ u.email = some email

def UserRecord.Verifies (lib : LoginLibrary) (password : String) (u : UserRecord) : Prop :=
  ∃ hash, u.passwordHash = some hash ∧ lib.checkpw password hash = .ok true

def UserRecord.token (lib : LoginLibrary) (u : UserRecord) : TokenResponse :=
  { accessToken := lib.createAccessToken u.id u.role.value u.restaurantId }

/-- What a login is to answer, whatever the rows of other restaurants are. -/
structure LoginAnswer (lib : LoginLibrary) (table : UsersTable) (body : AdminLoginRequest)
    (answer : Except Exn TokenResponse) : Prop where
  admits : ∀ admin ∈ table.rows, admin.AdminOf body.email → admin.isActive = true →
    admin.Verifies lib body.password →
    (∀ other ∈ table.rows, other.AdminOf body.email → other ≠ admin → ¬ other.Verifies lib body.password) →
      answer = .ok (admin.token lib)
  only : (∃ admin ∈ table.rows, admin.AdminOf body.email ∧ admin.isActive = true ∧
    admin.Verifies lib body.password ∧ answer = .ok (admin.token lib)) ∨ ∃ detail, answer = .error (.http 401 detail)

variable (lib) in
/-- The answer where one active administrator has the email. -/
theorem adminLogin_checked {users : List UserRecord} (h : LoginLibrary.activeAdmins users body.email = .ok [u])
    {hash : String} (hhash : u.passwordHash = some hash) : lib.adminLogin users body =
      ((lib.checkpw body.password hash).mapError .valueError).bind fun verified =>
        if verified then .ok (u.token lib) else .error LoginLibrary.invalidCredentials := by
  obtain ⟨id, restaurantId, role, email, passwordHash, pinHash, isActive⟩ := u
  cases hhash
  unfold LoginLibrary.adminLogin
  rw [h]
  rfl

section Found

variable {rows : List UserRecord} (hadmins : LoginLibrary.activeAdmins table.rows body.email = .ok rows)
  (hmem : ∀ u, u ∈ rows ↔ u ∈ table.rows ∧ u.AdminOf body.email ∧ u.isActive = true)

include hmem in
/-- A refusal is right if no active administrator of the email has the password. -/
theorem LoginAnswer.refused (h : ∀ u ∈ rows, ¬ u.Verifies lib body.password) :
    LoginAnswer lib table body (.error LoginLibrary.invalidCredentials) where
  admits admin hm ha hact hverifies _ := absurd hverifies (h admin ((hmem admin).mpr ⟨hm, ha, hact⟩))
  only := .inr ⟨_, rfl⟩

end Found

def plainHashes : LoginLibrary where
  checkpw plain hashed := .ok ("hash:" ++ plain == hashed)
  encode claims := claims.role ++ ":" ++ uuidStr claims.sub ++ ":" ++ uuidStr claims.restaurantId

end Admins

end QOrder
