import QOrder.Statements

/-! The services, statement by statement. An `AsyncSession` is modelled by what its
callers can observe of it: the sessions it has loaded, which a later select returns
unchanged, and whether a rollback has expired the objects loaded before. -/

namespace QOrder

open KeyedTable Concurrency QOrder.Action

/-- Selecting an entity that is loaded returns the in-memory instance. -/
def loadedInstance (loaded : List TableSession) (row : TableSession) : TableSession :=
  (lookup row.id loaded).getD row

def findOpenSession (tableId : Uuid) (loaded : List TableSession) :
    Action (Option TableSession) := do
  let rows ← query (.openSessions tableId)
  let row ← scalarOneOrNone rows
  return row.map (loadedInstance loaded)

namespace StaffCallService

/-- Default cooldown if no restaurant_settings row exists. -/
def defaultCooldownSeconds : Nat := 60

def getCooldown (restaurantId : Uuid) : Action Nat := do
  let value ← query (.cooldown restaurantId)
  return value.getD defaultCooldownSeconds

def dismissPending (sessionId restaurantId : Uuid) : Action Nat := do
  let rows ← command (.dismissPending sessionId restaurantId)
  return rows.calls.length

def publishNew (restaurantId : Uuid) (call : StaffCall) : Action Unit := do
  let event := RealtimeEvent.staffCallNew call.id call.tableId call.tableSessionId call.status
    call.createdAt
  publish (.kitchen restaurantId) event
  publish (.session restaurantId call.tableSessionId) event

/-- The new call is flushed by the commit, after the session row is updated. -/
def insertCall (tableId tableSessionId restaurantId : Uuid) : Action StaffCall := do
  let _ ← command (.touchSession tableSessionId)
  let rows ← command (.insertCall restaurantId tableId tableSessionId)
  let call ← scalarOne rows.calls.head?
  commit
  scalarOne (← query (.callById call.id))

def create (tableId tableSessionId restaurantId : Uuid) : Action (Option StaffCall) := do
  let cooldown ← getCooldown restaurantId
  if ← query (.recentCall tableId cooldown) then
    return none
  else
    let call ← insertCall tableId tableSessionId restaurantId
    publishNew restaurantId call
    return some call

def publishAck (restaurantId : Uuid) (call : StaffCall) : Action Unit := do
  let event := RealtimeEvent.staffCallAck call.id call.tableId call.tableSessionId call.status
    call.acknowledgedAt call.acknowledgedBy
  publish (.kitchen restaurantId) event
  publish (.session restaurantId call.tableSessionId) event

def acknowledge (callId actorUserId : Uuid) : Action StaffCall := do
  let now ← appNow
  let _ ← command (.acknowledgeCall callId now actorUserId)
  commit
  scalarOne (← query (.callById callId))

def ack (callId actorUserId restaurantId : Uuid) : Action StaffCall := do
  match ← query (.callOf callId restaurantId) with
  | none => throw (.valueError "Yêu cầu gọi nhân viên không tồn tại.")
  | some call =>
    if call.status = .acknowledged then
      return call
    else
      let call ← acknowledge callId actorUserId
      publishAck restaurantId call
      return call

end StaffCallService

namespace SessionService

/-- What `get_or_open` leaves to its caller: the session, and whether the objects
loaded before the call are expired. -/
structure Opened where
  session : TableSession
  expired : Bool

def recoverRace (tableId : Uuid) : Action Opened := do
  rollback
  match ← findOpenSession tableId [] with
  | some existing => return ⟨existing, true⟩
  | none =>
    throw (.runtimeError s!"Race recovery failed: no open session found for table {tableId}")

def commitNew (rows : Data) : Action Opened := do
  let newSession ← scalarOne rows.sessions.head?
  commit
  let newSession ← scalarOne (← query (.sessionById newSession.id))
  return ⟨newSession, false⟩

def getOrOpen (tableId restaurantId : Uuid) (openedBy : Option Uuid) : Action Opened := do
  match ← findOpenSession tableId [] with
  | some existing => return ⟨existing, false⟩
  | none =>
    match ← Prog.attempt (Stmt.command (.insertSession restaurantId tableId openedBy)) with
    | .ok rows => commitNew rows
    | .error .uniqueViolation => recoverRace tableId
    | .error e => throw (.db e)

structure CheckoutResult where
  session : TableSession
  totalAmount : Money
  autoCancelledItems : List CancelledItemSummary
  dismissedCallsCount : Nat
  deriving DecidableEq, Repr

inductive RestoreAction
  | restored | checkedOut
  deriving DecidableEq, Repr

structure RestoreResult where
  session : TableSession
  action : RestoreAction
  totalAmount : Option Money := none
  autoCancelledItems : List CancelledItemSummary := []
  dismissedCallsCount : Nat := 0
  deriving DecidableEq, Repr

def cancelIfAny (sessionId : Uuid) (autoCancelled : List CancelledItemSummary) : Action Unit :=
  if autoCancelled.isEmpty then pure ()
  else do
    let _ ← command (.cancelUnserved sessionId "table_closed")
    return ()

def readBack (sessionId : Uuid) (loaded : List TableSession) : Action TableSession := do
  let row ← scalarOne (← query (.sessionById sessionId))
  return loadedInstance loaded row

/-- Everything after the compare-and-swap of `checkout`, which the direct checkout of
`restore` repeats. -/
def settle (sessionId restaurantId : Uuid) (loaded : List TableSession) :
    Action CheckoutResult := do
  let autoCancelled ← query (.unservedItems sessionId)
  cancelIfAny sessionId autoCancelled
  let totalAmount ← query (.servedTotal sessionId)
  let _ ← command (.setTotal sessionId totalAmount)
  let dismissedCount ← StaffCallService.dismissPending sessionId restaurantId
  commit
  let finalSession ← readBack sessionId loaded
  return ⟨finalSession, totalAmount, autoCancelled, dismissedCount⟩

def checkout (sessionId restaurantId : Uuid) (loaded : List TableSession) :
    Action (Option CheckoutResult) := do
  let rows ← command (.closeSession sessionId restaurantId)
  match rows.sessions.head? with
  | none => return none
  | some _ =>
    let result ← settle sessionId restaurantId loaded
    return some result

def restoreToOpen (tableSession : TableSession) (restaurantId : Uuid) :
    Action RestoreResult := do
  let rows ← command (.reopenSession tableSession.id restaurantId)
  match rows.sessions.head? with
  | none =>
    throw (.valueError "Không thể khôi phục: phiên vừa bị thay đổi bởi thao tác khác.")
  | some _ =>
    commit
    let finalSession ← readBack tableSession.id [tableSession]
    return { session := finalSession, action := .restored }

def directCheckout (tableSession : TableSession) (restaurantId : Uuid) :
    Action RestoreResult := do
  let rows ← command (.closeAbandoned tableSession.id restaurantId)
  match rows.sessions.head? with
  | none =>
    throw (.valueError "Không thể thanh toán: phiên vừa bị thay đổi bởi thao tác khác.")
  | some _ =>
    let result ← settle tableSession.id restaurantId [tableSession]
    return ⟨result.session, .checkedOut, some result.totalAmount, result.autoCancelledItems,
      result.dismissedCallsCount⟩

def restoreAbandoned (tableSession : TableSession) (restaurantId : Uuid) :
    Action RestoreResult := do
  match ← findOpenSession tableSession.tableId [tableSession] with
  | none => restoreToOpen tableSession restaurantId
  | some _ => directCheckout tableSession restaurantId

def expiredMessage : String :=
  "Phiên đã quá 24 giờ kể từ khi bị đánh dấu abandoned. Không thể khôi phục hoặc thanh toán."

def restore (sessionId restaurantId : Uuid) : Action (Option RestoreResult) := do
  match ← query (.sessionOf sessionId restaurantId) with
  | none => return none
  | some tableSession =>
    if tableSession.status ≠ .abandoned then
      throw (.valueError "Chỉ có thể khôi phục phiên ở trạng thái 'abandoned'.")
    else match tableSession.abandonedAt with
      | none => throw (.valueError "Phiên thiếu thời điểm abandoned_at.")
      | some abandonedAt =>
        let now ← appNow
        if hours 24 < now - abandonedAt then
          throw (.valueError expiredMessage)
        else
          let result ← restoreAbandoned tableSession restaurantId
          return some result

end SessionService

namespace Scheduler

def publishAbandoned (sessionId restaurantId : Uuid) : Action Unit := do
  publish (.kitchen restaurantId) (.sessionAbandoned sessionId restaurantId)
  publish (.session restaurantId sessionId) (.sessionAbandoned sessionId restaurantId)

def abandonSession (sessionId restaurantId : Uuid) : Action Unit := do
  let rows ← command (.abandonSession sessionId)
  match rows.sessions.head? with
  | none => return ()
  | some _ =>
    let _ ← command (.cancelUnserved sessionId "session_abandoned")
    let _ ← StaffCallService.dismissPending sessionId restaurantId
    commit
    publishAbandoned sessionId restaurantId

/-- An exception in one session is logged and rolled back, and the loop goes on. -/
def sweepRows : List StaleSession → Action Unit
  | [] => pure ()
  | row :: rows => do
    Prog.tryCatch (abandonSession row.id row.restaurantId) fun _ => rollback
    sweepRows rows

def runSweep : Action Unit := do
  match ← query .staleSessions with
  | .error e => throw (.db e)
  | .ok rows => sweepRows rows

end Scheduler

namespace ItemStateService

/-- `ALLOWED_FROM`: the statuses each target may be reached from. -/
def allowedFrom : OrderItemStatus → Option (List OrderItemStatus)
  | .cooking => some [.pending]
  | .ready => some [.pending, .cooking]
  | .served => some [.pending, .cooking, .ready]
  | .pending => some [.served]
  | .cancelled => none

def statusValue : OrderItemStatus → String
  | .pending => "pending"
  | .cooking => "cooking"
  | .ready => "ready"
  | .served => "served"
  | .cancelled => "cancelled"

def statusUpdate (itemId : Uuid) (toStatus : OrderItemStatus) (actorUserId : Option Uuid)
    (restaurantId : Uuid) (allowed : List OrderItemStatus) : Command :=
  if toStatus = .pending then .undoItem toStatus itemId restaurantId allowed
  else if toStatus = .served then .serveItem toStatus actorUserId itemId restaurantId allowed
  else .advanceItem toStatus itemId restaurantId allowed

/-- Runs a compare-and-swap on an item, touches its session and commits. -/
def updateItem (update : Command) (conflict : String) : Action OrderItem := do
  let rows ← command update
  match rows.items.head? with
  | none => throw (.conflictError conflict)
  | some row =>
    let _ ← command (.touchSessionOfOrder row.orderId)
    commit
    return row

def setStatus (itemId : Uuid) (toStatus : OrderItemStatus) (actorUserId : Option Uuid)
    (restaurantId : Uuid) : Action OrderItem :=
  match allowedFrom toStatus with
  | none =>
    throw (.invalidTransition ("Không thể chuyển sang trạng thái '" ++ statusValue toStatus ++ "'."))
  | some allowed =>
    updateItem (statusUpdate itemId toStatus actorUserId restaurantId allowed)
      "Trạng thái món đã thay đổi bởi người khác hoặc điều kiện không thoả."

def cancelItem (itemId : Uuid) (cancelledBy : CancelledBy) (restaurantId : Uuid)
    (allowed : List OrderItemStatus) (cancelReason : Option String) : Action OrderItem :=
  updateItem (.cancelItem cancelledBy cancelReason itemId restaurantId allowed)
    "Không thể huỷ: món đã được phục vụ hoặc đã bị huỷ trước đó."

end ItemStateService

end QOrder
