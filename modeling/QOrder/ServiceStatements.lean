import QOrder.Finality
import QOrder.Routers

/-! What the services execute: inside their transactions they neither publish nor read the
menu. -/

namespace QOrder

open Concurrency Concurrency.Prog QOrder.Action

variable {α β : Type} {p : Action α}

/-- Anything but a message or a look at the menu. -/
def Stmt.Bare : Stmt → Prop
  | query (.menuItem _ _) | publish _ _ => False
  | _ => True

abbrev Bare (p : Action α) : Prop := p.Keeps Stmt.Bare fun _ => True

theorem bare_query {q : Query} (hq : (Stmt.query q).Bare) : Bare (query q) :=
  .call hq fun _ => trivial

theorem bare_command (c : Command) : Bare (command c) := .call trivial fun _ => trivial

theorem bare_commit : Bare commit := .call trivial fun _ => trivial

theorem bare_rollback : Bare rollback := .call trivial fun _ => trivial

theorem bare_appNow : Bare appNow := .call trivial fun _ => trivial

theorem bare_scalarOne (o : Option α) : Bare (scalarOne o) := by
  cases o <;> trivial

theorem bare_read (expired : Bool) (a : α) : Bare (readAttribute expired a) := by
  cases expired <;> trivial

theorem Bare.translate {g : Exn → Exn} (h : Bare p) : Bare (translate g p) :=
  Keeps.tryCatch h fun _ _ => trivial

theorem bare_findOpenSession (tableId : Uuid) (loaded : List TableSession) :
    Bare (findOpenSession tableId loaded) := by
  refine (bare_query (by trivial)).bind fun rows => ?_
  refine Keeps.bind ?_ fun _ => trivial
  match rows with
  | [] | [_] | _ :: _ :: _ => trivial

theorem bare_getOrOpen (tableId restaurantId : Uuid) (openedBy : Option Uuid) :
    Bare (SessionService.getOrOpen tableId restaurantId openedBy) := by
  refine (bare_findOpenSession ..).bind fun opened => ?_
  cases opened with
  | some s => trivial
  | none =>
    refine ⟨trivial, fun r => ?_⟩
    match r with
    | .ok rows =>
      refine (bare_scalarOne _).bind fun s => bare_commit.bind fun _ => ?_
      exact (bare_query (by trivial)).bind fun _ => (bare_scalarOne _).bind fun _ => trivial
    | .error .uniqueViolation =>
      refine bare_rollback.bind fun _ => (bare_findOpenSession ..).bind fun s => ?_
      cases s <;> trivial
    | .error .dataError | .error .staleData | .error .operational => trivial

theorem bare_resolveTable (qrToken : String) : Bare (Customer.resolveTable qrToken) := by
  refine (bare_query (by trivial)).bind fun table => ?_
  cases table with
  | none => trivial
  | some table =>
    refine (bare_query (by trivial)).bind fun restaurant => ?_
    cases restaurant <;> trivial

theorem bare_setLastActivity (tableSession : TableSession) (now : Timestamp) :
    Bare (Customer.setLastActivity tableSession now) := by
  unfold Customer.setLastActivity
  split
  · trivial
  · exact (bare_command _).bind fun _ => trivial

theorem bare_placeOrder (restaurantId : Uuid) (tableSession : TableSession)
    (menuItems : List MenuItem) (lines : List CreateOrderItemRequest) :
    Bare (Customer.placeOrder restaurantId tableSession menuItems lines) := by
  refine bare_appNow.bind fun now => (bare_command _).bind fun rows => ?_
  refine (bare_scalarOne _).bind fun order => (bare_command _).bind fun rows => ?_
  exact (bare_setLastActivity _ _).bind fun _ => bare_commit.bind fun _ => trivial

theorem bare_refreshItems (items : List OrderItem) : Bare (Customer.refreshItems items) := by
  induction items with
  | nil => trivial
  | cons item items ih =>
    refine (bare_query (by trivial)).bind fun row => (bare_scalarOne _).bind fun item => ?_
    exact ih.bind fun _ => trivial

theorem bare_updateItem (update : Command) (conflict : String) :
    Bare (ItemStateService.updateItem update conflict) := by
  refine (bare_command _).bind fun rows => ?_
  cases rows.items.head? with
  | none => trivial
  | some row => exact (bare_command _).bind fun _ => bare_commit.bind fun _ => trivial

theorem bare_setStatus (itemId : Uuid) (toStatus : OrderItemStatus) (actorUserId : Option Uuid)
    (restaurantId : Uuid) :
    Bare (ItemStateService.setStatus itemId toStatus actorUserId restaurantId) := by
  cases toStatus with
  | cancelled => trivial
  | _ => exact bare_updateItem _ _

theorem bare_settle (sessionId restaurantId : Uuid) (loaded : List TableSession) :
    Bare (SessionService.settle sessionId restaurantId loaded) := by
  refine (bare_query (by trivial)).bind fun cancelled => Keeps.bind ?_ fun _ => ?_
  · unfold SessionService.cancelIfAny
    split
    · trivial
    · exact (bare_command _).bind fun _ => trivial
  · refine (bare_query (by trivial)).bind fun total => (bare_command _).bind fun _ => Keeps.bind ?_ fun _ => ?_
    · exact (bare_command _).bind fun _ => trivial
    · refine bare_commit.bind fun _ => Keeps.bind ?_ fun _ => trivial
      exact (bare_query (by trivial)).bind fun _ => (bare_scalarOne _).bind fun _ => trivial

theorem bare_checkout (sessionId restaurantId : Uuid) (loaded : List TableSession) :
    Bare (SessionService.checkout sessionId restaurantId loaded) := by
  refine (bare_command _).bind fun rows => ?_
  cases rows.sessions.head? with
  | none => trivial
  | some _ => exact (bare_settle ..).bind fun _ => trivial

theorem bare_restoreAbandoned (tableSession : TableSession) (restaurantId : Uuid) :
    Bare (SessionService.restoreAbandoned tableSession restaurantId) := by
  refine (bare_findOpenSession ..).bind fun opened => ?_
  cases opened with
  | none =>
    refine (bare_command _).bind fun rows => ?_
    cases rows.sessions.head? with
    | none => trivial
    | some _ =>
      refine bare_commit.bind fun _ => Keeps.bind ?_ fun _ => trivial
      exact (bare_query (by trivial)).bind fun _ => (bare_scalarOne _).bind fun _ => trivial
  | some _ =>
    refine (bare_command _).bind fun rows => ?_
    cases rows.sessions.head? with
    | none => trivial
    | some _ => exact (bare_settle ..).bind fun _ => trivial

theorem bare_restore (sessionId restaurantId : Uuid) :
    Bare (SessionService.restore sessionId restaurantId) := by
  refine (bare_query (by trivial)).bind fun row => ?_
  cases row with
  | none => trivial
  | some tableSession =>
    simp only
    split
    · trivial
    · cases tableSession.abandonedAt with
      | none => trivial
      | some abandonedAt =>
        refine bare_appNow.bind fun now => ?_
        split
        · trivial
        · exact (bare_restoreAbandoned ..).bind fun _ => trivial

theorem bare_getCooldown (restaurantId : Uuid) : Bare (StaffCallService.getCooldown restaurantId) :=
  (bare_query (by trivial)).bind fun _ => trivial

theorem bare_insertCall (tableId tableSessionId restaurantId : Uuid) :
    Bare (StaffCallService.insertCall tableId tableSessionId restaurantId) := by
  refine (bare_command _).bind fun _ => (bare_command _).bind fun rows => ?_
  refine (bare_scalarOne _).bind fun call => bare_commit.bind fun _ => ?_
  exact (bare_query (by trivial)).bind fun _ => bare_scalarOne _

theorem bare_acknowledge (callId actorUserId : Uuid) :
    Bare (StaffCallService.acknowledge callId actorUserId) := by
  refine bare_appNow.bind fun now => (bare_command _).bind fun _ => ?_
  exact bare_commit.bind fun _ => (bare_query (by trivial)).bind fun _ => bare_scalarOne _

theorem bare_getSessionSnapshot (qrToken : String) : Bare (Customer.getSessionSnapshot qrToken) := by
  refine (bare_resolveTable _).bind fun found => (bare_getOrOpen ..).bind fun opened => ?_
  exact (bare_query (by trivial)).bind fun _ => trivial

theorem bare_openTable (user : TokenPayload) (tableId : Uuid) :
    Bare (StaffTables.openTable user tableId) := by
  refine (bare_query (by trivial)).bind fun table => ?_
  cases table with
  | none => trivial
  | some table =>
    simp only
    split
    · exact (bare_getOrOpen ..).bind fun _ => trivial
    · trivial

theorem bare_wsCustomer (qrToken : String) : Bare (Gateway.wsCustomer qrToken) := by
  refine Keeps.bind ?_ fun found => ?_
  · refine (bare_query (by trivial)).bind fun table => ?_
    cases table with
    | none => trivial
    | some table =>
      refine (bare_query (by trivial)).bind fun restaurant => ?_
      cases restaurant <;> trivial
  · cases found with
    | none => trivial
    | some found => exact (bare_getOrOpen ..).bind fun _ => trivial

end QOrder
