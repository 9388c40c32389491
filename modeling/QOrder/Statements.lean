import Mathlib.Tactic.Simps.Basic
import QOrder.Schema
import QOrder.Program

/-! The SQL statements of the ordering flow. A query is a function of the rows its
transaction sees; a command is given by the row versions it writes, the constraint
it may violate and the entries it adds to the one-open-session-per-table index. -/

namespace QOrder

open KeyedTable

/-- `now()` of the running transaction and the next generated id. -/
structure Ctx where
  now : Timestamp
  nextUuid : Uuid

inductive DbError
  | uniqueViolation | dataError | staleData | operational
  deriving DecidableEq, Repr

structure CancelledItemSummary where
  id : Uuid
  nameSnapshot : String
  quantity : Nat
  statusBefore : OrderItemStatus
  deriving DecidableEq, Repr

def OrderItem.summary (i : OrderItem) : CancelledItemSummary :=
  ⟨i.id, i.nameSnapshot, i.quantity, i.status⟩

structure StaleSession where
  id : Uuid
  restaurantId : Uuid
  tableId : Uuid
  deriving DecidableEq, Repr

inductive Query
  | tableByToken (qrToken : String)
  | tableOf (tableId restaurantId : Uuid)
  | activeRestaurant (id : Uuid)
  | openSessions (tableId : Uuid)
  | sessionById (id : Uuid)
  | sessionOf (id restaurantId : Uuid)
  | itemsOfSession (sessionId : Uuid)
  | unservedItems (sessionId : Uuid)
  | servedTotal (sessionId : Uuid)
  | menuItem (id restaurantId : Uuid)
  | itemExists (itemId restaurantId : Uuid)
  | itemInSession (itemId sessionId restaurantId : Uuid)
  | orderById (id : Uuid)
  | itemById (id : Uuid)
  | staleSessions
  | cooldown (restaurantId : Uuid)
  | recentCall (tableId : Uuid) (cooldownSeconds : Nat)
  | callOf (callId restaurantId : Uuid)
  | callById (id : Uuid)

@[reducible] def Query.Resp : Query → Type
  | tableByToken _ | tableOf _ _ => Option Table
  | activeRestaurant _ => Option Restaurant
  | openSessions _ => List TableSession
  | sessionById _ | sessionOf _ _ => Option TableSession
  | itemsOfSession _ => List OrderItem
  | unservedItems _ => List CancelledItemSummary
  | servedTotal _ => Money
  | menuItem _ _ => Option MenuItem
  | itemExists _ _ | itemInSession _ _ _ | recentCall _ _ => Bool
  | orderById _ => Option Order
  | itemById _ => Option OrderItem
  | staleSessions => Except DbError (List StaleSession)
  | cooldown _ => Option Nat
  | callOf _ _ | callById _ => Option StaffCall

/-- The least `timestamptz`; PostgreSQL raises when a result falls before it. -/
def minTimestamp : Timestamp := -210866803200000000

/-- `now() - make_interval(hours => rs.session_timeout_hours)` -/
def RestaurantSettings.staleBefore (rs : RestaurantSettings) (now : Timestamp) : Timestamp :=
  now - hours rs.sessionTimeoutHours

def openWithSettings (c : Catalog) (d : Data) : List (TableSession × RestaurantSettings) :=
  (d.sessions.filter fun s => s.status == .opened).flatMap fun s =>
    (c.settings.filter fun rs => rs.restaurantId == s.restaurantId).map fun rs => (s, rs)

def Catalog.activeTable (c : Catalog) (qrToken : String) : Option Table :=
  c.tables.find? fun t => t.qrToken == qrToken && t.isActive

def Query.eval (ctx : Ctx) (c : Catalog) (d : Data) : (q : Query) → q.Resp
  | tableByToken qrToken => c.activeTable qrToken
  | tableOf tableId restaurantId =>
    c.tables.find? fun t => t.id == tableId && t.restaurantId == restaurantId
  | activeRestaurant id => c.restaurants.find? fun r => r.id == id && r.isActive
  | openSessions tableId =>
    d.sessions.filter fun s => s.tableId == tableId && s.status == .opened
  | sessionById id => lookup id d.sessions
  | sessionOf id restaurantId =>
    (lookup id d.sessions).filter fun s => s.restaurantId == restaurantId
  | itemsOfSession sessionId =>
    (d.itemsOf sessionId).mergeSort fun i j => i.requestedAt ≤ j.requestedAt
  | unservedItems sessionId =>
    ((d.itemsOf sessionId).filter OrderItem.isUnserved).map OrderItem.summary
  | servedTotal sessionId => QOrder.servedTotal (d.itemsOf sessionId)
  | menuItem id restaurantId =>
    c.menuItems.find? fun m => m.id == id && m.restaurantId == restaurantId && m.isActive
  | itemExists itemId restaurantId =>
    d.items.any fun i => i.id == itemId && i.restaurantId == restaurantId
  | itemInSession itemId sessionId restaurantId =>
    (d.itemsOf sessionId).any fun i => i.id == itemId && i.restaurantId == restaurantId
  | orderById id => lookup id d.orders
  | itemById id => lookup id d.items
  | staleSessions =>
    let pairs := openWithSettings c d
    if pairs.any fun p => p.2.staleBefore ctx.now < minTimestamp then .error .dataError
    else .ok <|
      (pairs.filter fun p => p.1.lastActivityAt < p.2.staleBefore ctx.now).map fun p =>
        ⟨p.1.id, p.1.restaurantId, p.1.tableId⟩
  | cooldown restaurantId =>
    (c.settings.find? fun rs => rs.restaurantId == restaurantId).map (·.staffCallCooldownSeconds)
  | recentCall tableId cooldownSeconds =>
    d.calls.any fun c => c.tableId == tableId && ctx.now - seconds cooldownSeconds < c.createdAt
  | callOf callId restaurantId =>
    (lookup callId d.calls).filter fun c => c.restaurantId == restaurantId
  | callById id => lookup id d.calls

/-- The columns an `INSERT INTO order_items` names. -/
structure NewItem where
  restaurantId : Uuid
  orderId : Uuid
  menuItemId : Uuid
  nameSnapshot : String
  priceSnapshot : Money
  prepTimeSnapshot : Nat
  quantity : Nat
  note : Option String
  requestedAt : Timestamp
  deriving DecidableEq, Repr

@[simps] def NewItem.row (n : NewItem) (id : Uuid) : OrderItem where
  id := id
  restaurantId := n.restaurantId
  orderId := n.orderId
  menuItemId := n.menuItemId
  nameSnapshot := n.nameSnapshot
  priceSnapshot := n.priceSnapshot
  prepTimeSnapshot := n.prepTimeSnapshot
  quantity := n.quantity
  note := n.note
  status := .pending
  requestedAt := n.requestedAt
  servedBy := none
  servedAt := none
  cancelledBy := none
  cancelledAt := none
  cancelReason := none

inductive Command
  | insertSession (restaurantId tableId : Uuid) (openedBy : Option Uuid)
  | closeSession (sessionId restaurantId : Uuid)
  | abandonSession (sessionId : Uuid)
  | reopenSession (sessionId restaurantId : Uuid)
  | closeAbandoned (sessionId restaurantId : Uuid)
  | setTotal (sessionId : Uuid) (totalAmount : Money)
  | cancelUnserved (sessionId : Uuid) (cancelReason : String)
  | dismissPending (sessionId restaurantId : Uuid)
  | undoItem (toStatus : OrderItemStatus) (itemId restaurantId : Uuid)
      (allowedFrom : List OrderItemStatus)
  | serveItem (toStatus : OrderItemStatus) (actorUserId : Option Uuid)
      (itemId restaurantId : Uuid) (allowedFrom : List OrderItemStatus)
  | advanceItem (toStatus : OrderItemStatus) (itemId restaurantId : Uuid)
      (allowedFrom : List OrderItemStatus)
  | cancelItem (cancelledBy : CancelledBy) (cancelReason : Option String)
      (itemId restaurantId : Uuid) (allowedFrom : List OrderItemStatus)
  | touchSessionOfOrder (orderId : Uuid)
  | touchSession (sessionId : Uuid)
  | insertOrder (restaurantId tableSessionId : Uuid)
  | insertItems (rows : List NewItem)
  | setLastActivity (sessionId : Uuid) (lastActivityAt : Timestamp)
  | insertCall (restaurantId tableId tableSessionId : Uuid)
  | acknowledgeCall (callId : Uuid) (acknowledgedAt : Timestamp) (acknowledgedBy : Uuid)

/-- `now() - served_at <= interval '120 seconds'` -/
def OrderItem.undoable (i : OrderItem) (now : Timestamp) : Bool :=
  i.servedAt.any fun t => now - t ≤ seconds 120

def OrderItem.matchesId (i : OrderItem) (itemId restaurantId : Uuid)
    (allowedFrom : List OrderItemStatus) : Bool :=
  i.id == itemId && i.restaurantId == restaurantId && allowedFrom.contains i.status

def TableSession.matchesId (s : TableSession) (sessionId restaurantId : Uuid)
    (status : SessionStatus) : Bool :=
  s.id == sessionId && s.restaurantId == restaurantId && s.status == status

@[simps] def OrderItem.cancel (i : OrderItem) (by_ : CancelledBy) (now : Timestamp)
    (reason : Option String) : OrderItem :=
  { i with status := .cancelled, cancelledBy := some by_, cancelledAt := some now, cancelReason := reason }

@[simps] def OrderItem.advance (i : OrderItem) (toStatus : OrderItemStatus) : OrderItem :=
  { i with status := toStatus }

@[simps] def OrderItem.serve (i : OrderItem) (toStatus : OrderItemStatus) (actorUserId : Option Uuid)
    (now : Timestamp) : OrderItem :=
  { i with status := toStatus, servedBy := actorUserId, servedAt := some now }

@[simps] def OrderItem.undo (i : OrderItem) (toStatus : OrderItemStatus) : OrderItem :=
  { i with status := toStatus, servedBy := none, servedAt := none }

@[simps] def StaffCall.acknowledge (c : StaffCall) (at_ : Timestamp) (by_ : Uuid) : StaffCall :=
  { c with status := .acknowledged, acknowledgedAt := some at_, acknowledgedBy := some by_ }

@[simps] def StaffCall.dismiss (c : StaffCall) (now : Timestamp) : StaffCall :=
  { c with status := .acknowledged, acknowledgedAt := some now }

def Data.cancelledItems (d : Data) (sessionId : Uuid) (now : Timestamp) (reason : String) :
    List OrderItem :=
  changed OrderItem.isUnserved (fun i => i.cancel .system now (some reason)) (d.itemsOf sessionId)

def Data.dismissedCalls (d : Data) (sessionId restaurantId : Uuid) (now : Timestamp) :
    List StaffCall :=
  (d.pendingCalls sessionId restaurantId).map fun c => c.dismiss now

@[simps] def TableSession.close (s : TableSession) (now : Timestamp) : TableSession :=
  { s with status := .closed, closedAt := some now }

@[simps] def TableSession.abandon (s : TableSession) (now : Timestamp) : TableSession :=
  { s with status := .abandoned, abandonedAt := some now, totalAmount := none }

@[simps] def TableSession.reopen (s : TableSession) (now : Timestamp) : TableSession :=
  { s with status := .opened, abandonedAt := none, lastActivityAt := now }

@[simps] def TableSession.setTotal (s : TableSession) (totalAmount : Money) : TableSession :=
  { s with totalAmount := some totalAmount }

@[simps] def TableSession.touch (s : TableSession) (at_ : Timestamp) : TableSession :=
  { s with lastActivityAt := at_ }

/-- The row versions a command writes, given the rows its transaction sees. -/
def Command.rows (ctx : Ctx) (d : Data) : Command → Data
  | insertSession restaurantId tableId openedBy =>
    { sessions := [{ id := ctx.nextUuid, restaurantId, tableId, status := .opened, openedBy,
                     openedAt := ctx.now, lastActivityAt := ctx.now, closedAt := none,
                     abandonedAt := none, totalAmount := none }] }
  | closeSession sessionId restaurantId =>
    { sessions := changed (fun s => s.matchesId sessionId restaurantId .opened)
        (fun s => s.close ctx.now) d.sessions }
  | abandonSession sessionId =>
    { sessions := changed (fun s => s.id == sessionId && s.status == .opened)
        (fun s => s.abandon ctx.now) d.sessions }
  | reopenSession sessionId restaurantId =>
    { sessions := changed (fun s => s.matchesId sessionId restaurantId .abandoned)
        (fun s => s.reopen ctx.now) d.sessions }
  | closeAbandoned sessionId restaurantId =>
    { sessions := changed (fun s => s.matchesId sessionId restaurantId .abandoned)
        (fun s => s.close ctx.now) d.sessions }
  | setTotal sessionId totalAmount =>
    { sessions := changed (fun s => s.id == sessionId)
        (fun s => s.setTotal totalAmount) d.sessions }
  | cancelUnserved sessionId cancelReason =>
    { items := d.cancelledItems sessionId ctx.now cancelReason }
  | dismissPending sessionId restaurantId =>
    { calls := d.dismissedCalls sessionId restaurantId ctx.now }
  | undoItem toStatus itemId restaurantId allowedFrom =>
    { items := changed
        (fun i => i.matchesId itemId restaurantId allowedFrom && i.undoable ctx.now)
        (fun i => i.undo toStatus) d.items }
  | serveItem toStatus actorUserId itemId restaurantId allowedFrom =>
    { items := changed (fun i => i.matchesId itemId restaurantId allowedFrom)
        (fun i => i.serve toStatus actorUserId ctx.now) d.items }
  | advanceItem toStatus itemId restaurantId allowedFrom =>
    { items := changed (fun i => i.matchesId itemId restaurantId allowedFrom)
        (fun i => i.advance toStatus) d.items }
  | cancelItem cancelledBy cancelReason itemId restaurantId allowedFrom =>
    { items := changed (fun i => i.matchesId itemId restaurantId allowedFrom)
        (fun i => i.cancel cancelledBy ctx.now cancelReason) d.items }
  | touchSessionOfOrder orderId =>
    { sessions := changed
        (fun s => (lookup orderId d.orders).any fun o => o.tableSessionId == s.id)
        (fun s => s.touch ctx.now) d.sessions }
  | touchSession sessionId =>
    { sessions := changed (fun s => s.id == sessionId) (fun s => s.touch ctx.now) d.sessions }
  | insertOrder restaurantId tableSessionId =>
    { orders := [⟨ctx.nextUuid, restaurantId, tableSessionId, ctx.now⟩] }
  | insertItems rows => { items := rows.mapIdx fun k n => n.row (ctx.nextUuid + k) }
  | setLastActivity sessionId lastActivityAt =>
    { sessions := changed (fun s => s.id == sessionId) (fun s => s.touch lastActivityAt) d.sessions }
  | insertCall restaurantId tableId tableSessionId =>
    { calls := [{ id := ctx.nextUuid, restaurantId, tableId, tableSessionId, status := .pending,
                  createdAt := ctx.now, acknowledgedAt := none, acknowledgedBy := none }] }
  | acknowledgeCall callId acknowledgedAt acknowledgedBy =>
    { calls := changed (fun c => c.id == callId)
        (fun c => c.acknowledge acknowledgedAt acknowledgedBy) d.calls }

/-- The entries a command adds to `uq_one_open_session_per_table`, with the row they point to. -/
def Command.indexEntries (ctx : Ctx) (d : Data) : Command → List (Uuid × Uuid)
  | insertSession _ tableId _ => [(tableId, ctx.nextUuid)]
  | reopenSession sessionId restaurantId =>
    (reopenSession sessionId restaurantId |>.rows ctx d).sessions.map fun s => (s.tableId, s.id)
  | _ => []

def int4Max : Nat := 2147483647

/-- `NUMERIC(12,2)` holds absolute values below 10^10. -/
def numericLimit : Money := 1000000000000

/-- The constraint a command violates. -/
def Command.violation (ctx : Ctx) (d : Data) (c : Command) : Option DbError :=
  if (c.indexEntries ctx d).any fun e =>
      d.sessions.any fun s => s.tableId == e.1 && s.status == .opened && s.id != e.2 then
    some .uniqueViolation
  else match c with
    | setTotal _ totalAmount =>
      if totalAmount ≤ -numericLimit ∨ numericLimit ≤ totalAmount then some .dataError else none
    | insertItems rows => if rows.any fun n => int4Max < n.quantity then some .dataError else none
    -- The unit of work expects each of its UPDATEs to match one row.
    | setLastActivity _ _ => if (c.rows ctx d).sessions.isEmpty then some .staleData else none
    | acknowledgeCall _ _ _ => if (c.rows ctx d).calls.isEmpty then some .staleData else none
    | _ => none

/-- How many ids a command generates. -/
def Command.generated : Command → Nat
  | insertSession _ _ _ | insertOrder _ _ | insertCall _ _ _ => 1
  | insertItems rows => rows.length
  | _ => 0

inductive Channel
  | kitchen (restaurantId : Uuid)
  | session (restaurantId sessionId : Uuid)
  deriving DecidableEq, Repr

structure PublishedItem where
  id : Uuid
  nameSnapshot : String
  quantity : Nat
  status : OrderItemStatus
  deriving DecidableEq, Repr

inductive RealtimeEvent
  | orderCreated (id tableSessionId : Uuid) (items : List PublishedItem)
  | itemUpdated (id : Uuid) (status : OrderItemStatus) (orderId : Uuid)
  | itemCancelled (id : Uuid) (status : OrderItemStatus) (cancelledBy : CancelledBy)
      (orderId : Option Uuid)
  | staffCallNew (id tableId tableSessionId : Uuid) (status : StaffCallStatus)
      (createdAt : Timestamp)
  | staffCallAck (id tableId tableSessionId : Uuid) (status : StaffCallStatus)
      (acknowledgedAt : Option Timestamp) (acknowledgedBy : Option Uuid)
  | sessionClosed (id tableId : Uuid) (totalAmount : Money) (closedAt : Option Timestamp)
  | sessionAbandoned (sessionId restaurantId : Uuid)
  | sessionRestored (id tableId : Uuid)
  deriving DecidableEq, Repr

inductive Stmt
  | query (q : Query)
  | command (c : Command)
  | commit
  | rollback
  /-- `datetime.now(timezone.utc)` -/
  | appNow
  | publish (channel : Channel) (event : RealtimeEvent)

@[reducible] def Stmt.Resp : Stmt → Type
  | query q => q.Resp
  | command _ => Data
  | commit | rollback | publish _ _ => Unit
  | appNow => Timestamp

inductive Exn
  | http (statusCode : Nat) (detail : String)
  | valueError (message : String)
  | runtimeError (message : String)
  | conflictError (message : String)
  | invalidTransition (message : String)
  | db (e : DbError)
  | multipleResultsFound
  | noResultFound
  | missingGreenlet
  deriving DecidableEq, Repr

abbrev Action := Concurrency.Prog Stmt Stmt.Resp DbError Exn

namespace Action

open Concurrency

def query (q : Query) : Action q.Resp := Prog.call Exn.db (Stmt.query q)

/-- Executes a command and returns the rows it wrote, as `RETURNING *` does. -/
def command (c : Command) : Action Data := Prog.call Exn.db (Stmt.command c)

def commit : Action Unit := Prog.call Exn.db Stmt.commit

def rollback : Action Unit := Prog.call Exn.db Stmt.rollback

def appNow : Action Timestamp := Prog.call Exn.db Stmt.appNow

def publish (channel : Channel) (event : RealtimeEvent) : Action Unit :=
  Prog.call Exn.db (Stmt.publish channel event)

def scalarOneOrNone {α : Type} : List α → Action (Option α)
  | [] => pure none
  | [a] => pure (some a)
  | _ => throw .multipleResultsFound

def scalarOne {α : Type} : Option α → Action α
  | some a => pure a
  | none => throw .noResultFound

end Action

end QOrder
