import QOrder.AdminAnswers
import QOrder.Logins
import QOrder.SessionAnswers

/-! What clients send, with the credentials that it carries, and what it is answered. The guard of
the roles stands before the endpoints of the staff and of the administrators. -/

namespace QOrder

open KeyedTable Concurrency

section Guards

variable (lib : TokenLibrary) (now : Nat)

/-- The header's credentials, as `HTTPBearer` finds them, decoded. -/
def getCurrentUser : Option String → Except Exn AccessToken
  | none => .error (.http 401 "Missing authentication credentials")
  | some credentials =>
    match decodeAccessToken lib now credentials with
    | none => .error (.http 401 "Invalid or expired token")
    | some payload => .ok payload

def requireRole (roles : List String) (credentials : Option String) : Except Exn AccessToken :=
  match getCurrentUser lib now credentials with
  | .error e => .error e
  | .ok currentUser =>
    if currentUser.role ∈ roles then .ok currentUser
    else .error (.http 403
      ("Role '" ++ currentUser.role ++ "' is not authorized. Required: " ++ ", ".intercalate roles))

end Guards

def AccessToken.user (token : AccessToken) : TokenPayload := ⟨token.sub, token.restaurantId⟩

/-- The endpoints of the kitchen and of the staff's tables. -/
inductive StaffRequest
  | getKitchenBoard
  | setItemStatus (itemId : Uuid) (toStatus : OrderItemStatus)
  | cancelItemStaff (itemId : Uuid) (reason : Option String)
  | ackStaffCall (callId : Uuid)
  | openTable (tableId : Uuid)
  | checkoutSession (sessionId : Uuid)
  | restoreSession (sessionId : Uuid)

/-- The board is read at once; the others are programs. -/
def StaffRequest.request (user : TokenPayload) : StaffRequest → Option Request
  | getKitchenBoard => none
  | setItemStatus itemId toStatus => some (.setItemStatus user itemId toStatus)
  | cancelItemStaff itemId reason => some (.cancelItemStaff user itemId reason)
  | ackStaffCall callId => some (.ackStaffCall user callId)
  | openTable tableId => some (.openTable user tableId)
  | checkoutSession sessionId => some (.checkoutSession user sessionId)
  | restoreSession sessionId => some (.restoreSession user sessionId)

structure AccessLibrary where
  tokens : TokenLibrary
  logins : LoginLibrary
  admins : AdminLibrary

/-- What clients send, with the credentials that it carries. -/
inductive ClientCall
  | resolveQr (qrToken : String)
  | customer (r : Request)
  | staff (credentials : Option String) (r : StaffRequest)
  | admin (credentials : Option String) (draws : Draws) (r : AdminRequest)
  | staffLogin (body : StaffLoginRequest)
  | adminLogin (body : AdminLoginRequest)
  | wsTicket (restaurantSlug : String) (authorization : Option String)

inductive CallError
  | exn (e : Exn)
  | menu (e : MenuError)

inductive CallAnswer
  | page (page : QRResolveResponse)
  | response (answer : Response)
  | board (items : List OrderItem)
  | admin (answer : AdminResponse)
  | token (token : TokenResponse)
  | ticket (restaurantId : Uuid) (userId : Option Uuid)

/-- The rows, and the objects beside them. -/
structure Site where
  office : Office
  data : Data

namespace Site

variable (lib : AccessLibrary) (now : Nat) (w : Moment) (σ : Site)

/-- A request of the ordering flow, which has the rows to itself. -/
def execute (r : Request) : Except CallError CallAnswer × Site :=
  (((r.response w σ.office.catalog σ.data).mapError .exn).map .response,
    { σ with data := r.effect w σ.office.catalog σ.data })

def serveStaff (user : TokenPayload) (r : StaffRequest) : Except CallError CallAnswer × Site :=
  match r.request user with
  | none => (.ok (.board (Kitchen.getKitchenBoard σ.data user.restaurantId)), σ)
  | some request => σ.execute w request

def serveAdmin (user : TokenPayload) (draws : Draws) (r : AdminRequest) : Except CallError CallAnswer × Site :=
  (((r.handle lib.admins user draws σ.office).1.mapError .menu).map .admin,
    { σ with office := (r.handle lib.admins user draws σ.office).2 })

/-- An endpoint behind `Depends(require_role(...))`. -/
def guarded (roles : List String) (credentials : Option String)
    (endpoint : AccessToken → Except CallError CallAnswer × Site) : Except CallError CallAnswer × Site :=
  match requireRole lib.tokens now roles credentials with
  | .error e => (.error (.exn e), σ)
  | .ok token => endpoint token

def serve : ClientCall → Except CallError CallAnswer × Site
  | .resolveQr qrToken => (((σ.office.resolveQr qrToken).mapError .exn).map .page, σ)
  | .customer r => σ.execute w r
  | .staff credentials r =>
    σ.guarded lib now ["staff", "admin"] credentials fun token => σ.serveStaff w token.user r
  | .admin credentials draws r =>
    σ.guarded lib now ["admin"] credentials fun token => σ.serveAdmin lib token.user draws r
  | .staffLogin body => (((lib.logins.staffLogin σ.office body).mapError .exn).map .token, σ)
  | .adminLogin body => (((lib.logins.adminLogin σ.office.users body).mapError .exn).map .token, σ)
  | .wsTicket restaurantSlug authorization =>
    (((createWsTicket lib.tokens now σ.office.accounts restaurantSlug authorization).mapError .exn).map
      fun ticket => .ticket ticket.1 ticket.2, σ)

end Site

/-- An error, or a socket that is closed at once. -/
def Rejects : Except CallError CallAnswer → Prop
  | .error _ => True
  | .ok (.response (.subscribed none)) => True
  | .ok _ => False

/-- The call is answered with an error and changes no row. -/
def ClientCall.Refused (lib : AccessLibrary) (now : Nat) (w : Moment) (σ : Site) (call : ClientCall) : Prop :=
  Rejects (σ.serve lib now w call).1 ∧ (σ.serve lib now w call).2.data = σ.data ∧
    { (σ.serve lib now w call).2.office with store := σ.office.store } = σ.office

/-- The restaurant that the credentials of a call name. -/
def ClientCall.ActsFor (lib : AccessLibrary) (now : Nat) (o : Office) (restaurantId : Uuid) : ClientCall → Prop
  | resolveQr qrToken => ∃ t ∈ o.tables, t.qrToken = qrToken ∧ t.restaurantId = restaurantId
  | customer r => ∃ t ∈ o.tables, r.qrToken = some t.qrToken ∧ t.restaurantId = restaurantId
  | staff credentials _ | admin credentials _ _ =>
    ∃ token, getCurrentUser lib.tokens now credentials = .ok token ∧ token.restaurantId = restaurantId
  | staffLogin body => ∃ r ∈ o.restaurants, r.slug = body.restaurantSlug ∧ r.id = restaurantId
  | adminLogin body => ∃ u ∈ o.users, u.AdminOf body.email ∧ u.restaurantId = restaurantId
  | wsTicket restaurantSlug _ => ∃ r ∈ o.restaurants, r.slug = restaurantSlug ∧ r.id = restaurantId

/-- The rows that a request of the staff needs are there. -/
def StaffRequest.Serves (w : Moment) (σ : Site) (restaurantId : Uuid) : StaffRequest → Prop
  | getKitchenBoard => True
  | setItemStatus itemId toStatus => ∃ i ∈ σ.data.items, i.Moves itemId restaurantId w.clock toStatus
  | cancelItemStaff itemId _ => ∃ i ∈ σ.data.items, i.matchesId itemId restaurantId [.pending, .cooking, .ready] = true
  | ackStaffCall callId => ∃ c ∈ σ.data.calls, c.id = callId ∧ c.restaurantId = restaurantId
  | openTable tableId => ∃ t ∈ σ.office.tables, t.id = tableId ∧ t.restaurantId = restaurantId ∧ t.isActive = true
  | checkoutSession sessionId =>
    (∃ x ∈ σ.data.sessions, x.matchesId sessionId restaurantId .opened = true) ∧ σ.data.Payable sessionId
  | restoreSession sessionId => σ.data.Restorable w.appClock sessionId restaurantId

section Answers

variable {lib : AccessLibrary} {now : Nat} {w : Moment} {σ : Site} {owner : Uuid → Uuid} {α : Type}

/-- The answer and the rows that a call is refused with. -/
def Site.Turned (σ : Site) (out : Except CallError CallAnswer × Site) : Prop :=
  Rejects out.1 ∧ out.2.data = σ.data ∧ { out.2.office with store := σ.office.store } = σ.office

theorem ClientCall.refused_iff {call : ClientCall} : call.Refused lib now w σ ↔ σ.Turned (σ.serve lib now w call) := Iff.rfl

theorem Site.turned_error (e : CallError) : σ.Turned (.error e, σ) := ⟨trivial, rfl, rfl⟩

/-- A request whose program only wraps what its endpoint returns, and subscribes to nothing. -/
theorem Site.turned_execute {r : Request} {p : Action α} {f : α → Response}
    (hp : r.handler = p >>= fun a => pure (f a)) (hf : ∀ a, f a ≠ .subscribed none) :
    σ.Turned (σ.execute w r) ↔ (w.solo σ.office.catalog σ.data).Denies p := by
  rw [← Solo.denies_handler (f := f), ← hp, Solo.Denies, ← Request.response_solo, ← Request.effect_solo]
  constructor
  · rintro ⟨hrejects, hdata, -⟩
    refine ⟨?_, hdata⟩
    cases hanswer : r.response w σ.office.catalog σ.data with
    | error e => exact ⟨e, rfl⟩
    | ok a =>
      have hwraps : ∃ b, a = f b := by
        rw [Request.response_solo, hp, Solo.run_bind] at hanswer
        cases hrun : ((w.solo σ.office.catalog σ.data).run p).1 with
        | error e =>
          rw [hrun] at hanswer
          cases hanswer
        | ok b =>
          rw [hrun] at hanswer
          cases hanswer
          exact ⟨b, rfl⟩
      obtain ⟨b, rfl⟩ := hwraps
      have hbad : Rejects (.ok (.response (f b))) := by
        rw [Site.execute, hanswer] at hrejects
        exact hrejects
      have hne := hf b
      cases hfb : f b with
      | subscribed channel =>
        rw [hfb] at hbad hne
        cases channel with
        | none => exact absurd rfl hne
        | some channel => exact hbad.elim
      | _ =>
        rw [hfb] at hbad
        exact hbad.elim
  · rintro ⟨⟨e, he⟩, hdata⟩
    refine ⟨?_, hdata, rfl⟩
    rw [Site.execute, he]
    trivial

theorem Site.turned_serveStaff (h : σ.data.Ok owner) (hids : UniqueKeys σ.office.tables) (user : TokenPayload)
    (r : StaffRequest) : σ.Turned (σ.serveStaff w user r) ↔ ¬ r.Serves w σ user.restaurantId := by
  let s := w.solo σ.office.catalog σ.data
  have hrests : s.Rests := rfl
  have hd : s.data.Ok owner := h
  cases r with
  | getKitchenBoard => exact iff_of_false (fun hno => hno.1) (not_not_intro trivial)
  | setItemStatus itemId toStatus =>
    exact (Site.turned_execute (f := .item) rfl fun a ha => by cases ha).trans (Solo.denies_setItemStatus hrests hd)
  | cancelItemStaff itemId reason =>
    exact (Site.turned_execute (f := .item) rfl fun a ha => by cases ha).trans (Solo.denies_cancelItemStaff hrests hd)
  | ackStaffCall callId =>
    exact (Site.turned_execute (f := fun call => .call (some call)) rfl fun a ha => by cases ha).trans
      (Solo.denies_ackStaffCall hrests hd)
  | openTable tableId =>
    have htables : (s.catalog.tables.map Table.id).Nodup := by
      change ((σ.office.tables.map fun t => t.toTable).map Table.id).Nodup
      rw [List.map_map]
      exact hids
    refine ((Site.turned_execute (f := .session) rfl fun a ha => by cases ha).trans
      (Solo.denies_openTable hrests hd htables)).trans (not_congr ?_)
    constructor
    · rintro ⟨t, ht, hown⟩
      obtain ⟨row, hrow, rfl⟩ := List.mem_map.mp ht
      exact ⟨row, hrow, hown⟩
    · rintro ⟨row, hrow, hown⟩
      exact ⟨row.toTable, List.mem_map_of_mem hrow, hown⟩
  | checkoutSession sessionId =>
    exact (Site.turned_execute (f := .checkout) rfl fun a ha => by cases ha).trans
      (Solo.denies_checkoutSession hrests hd)
  | restoreSession sessionId =>
    exact (Site.turned_execute (f := .restore) rfl fun a ha => by cases ha).trans
      (Solo.denies_restoreSession hrests hd)

theorem Site.turned_serveAdmin (h : σ.office.Lawful) {user : TokenPayload}
    (hr : ∃ r ∈ σ.office.restaurants, r.id = user.restaurantId) (draws : Draws) (r : AdminRequest) :
    σ.Turned (σ.serveAdmin lib user draws r) ↔ ¬ r.Serves lib.admins user draws σ.office := by
  rw [← AdminRequest.denies h hr, Site.Turned, Site.serveAdmin, Office.Denies]
  cases (r.handle lib.admins user draws σ.office).1 with
  | error e => exact ⟨fun hno => ⟨⟨e, rfl⟩, hno.2.2⟩, fun hno => ⟨trivial, rfl, hno.2⟩⟩
  | ok a =>
    refine iff_of_false (fun hno => hno.1) ?_
    rintro ⟨⟨e, he⟩, -⟩
    cases he

/-- A customer whose token does not resolve. -/
theorem Site.turned_customer {qrToken : String} {e : Exn} (he : σ.office.catalog.resolve qrToken = .error e)
    {r : Request} (hq : r.qrToken = some qrToken) : σ.Turned (σ.execute w r) := by
  have hrun := Solo.run_unresolved (s := w.solo σ.office.catalog σ.data) he hq
  rw [Site.Turned, Site.execute, Request.response_solo, Request.effect_solo]
  rcases hrun with hrun | hrun
  · rw [hrun]
    exact ⟨trivial, rfl, rfl⟩
  · rw [hrun]
    exact ⟨trivial, rfl, rfl⟩

/-- A guarded endpoint refuses by its guard, or by what it is asked for. -/
theorem Site.turned_guarded {roles : List String} {credentials : Option String} {token : AccessToken}
    (htoken : getCurrentUser lib.tokens now credentials = .ok token)
    {endpoint : AccessToken → Except CallError CallAnswer × Site} {hopeless : AccessToken → Prop}
    (h : σ.Turned (endpoint token) ↔ hopeless token) :
    σ.Turned (σ.guarded lib now roles credentials endpoint) ↔
      ∀ token, getCurrentUser lib.tokens now credentials = .ok token → token.role ∈ roles → hopeless token := by
  unfold Site.guarded requireRole
  rw [htoken]
  dsimp only
  by_cases hrole : token.role ∈ roles
  · rw [if_pos hrole]
    refine h.trans ⟨fun hno token' htoken' _ => ?_, fun hno => hno token rfl hrole⟩
    cases htoken'
    exact hno
  · rw [if_neg hrole]
    refine iff_of_true (Site.turned_error _) fun token' htoken' hrole' => ?_
    cases htoken'
    exact absurd hrole' hrole

end Answers

end QOrder
