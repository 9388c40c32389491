import QOrder.Services

/-! The endpoints that act on sessions, orders, items and calls. A request is the
program its handler runs, with the parsed body and the verified token as arguments. -/

namespace QOrder

open Concurrency QOrder.Action

structure TokenPayload where
  sub : Uuid
  restaurantId : Uuid
  deriving DecidableEq, Repr

structure CreateOrderItemRequest where
  menuItemId : Uuid
  quantity : Nat
  note : Option String := none
  quantity_pos : 0 < quantity := by decide

structure CreateOrderRequest where
  items : List CreateOrderItemRequest
  items_ne_nil : items ≠ [] := by simp

structure CreateOrderResponse where
  id : Uuid
  tableSessionId : Uuid
  createdAt : Timestamp
  items : List OrderItem
  deriving DecidableEq, Repr

/-- Reading an attribute of an expired object outside an awaited call raises. -/
def readAttribute {α : Type} (expired : Bool) (a : α) : Action α :=
  if expired then throw .missingGreenlet else pure a

def translate {α : Type} (f : Exn → Exn) (p : Action α) : Action α :=
  p.tryCatch fun e => throw (f e)

def conflictToHttp : Exn → Exn
  | .invalidTransition message => .http 400 message
  | .conflictError message => .http 409 message
  | e => e

def valueErrorToHttp (statusCode : Nat) : Exn → Exn
  | .valueError message => .http statusCode message
  | e => e

namespace Customer

/-- Steps 1 and 2 of every customer endpoint: the token's active table and restaurant. -/
def resolveTable (qrToken : String) : Action (Table × Restaurant) := do
  match ← query (.tableByToken qrToken) with
  | none => throw (.http 404 "Mã QR không hợp lệ hoặc bàn đã ngừng hoạt động.")
  | some table =>
    match ← query (.activeRestaurant table.restaurantId) with
    | none => throw (.http 404 "Nhà hàng hiện không hoạt động.")
    | some restaurant => return (table, restaurant)

def getSessionSnapshot (qrToken : String) : Action (TableSession × List OrderItem) := do
  let (table, restaurant) ← resolveTable qrToken
  let opened ← SessionService.getOrOpen table.id restaurant.id none
  let items ← query (.itemsOfSession opened.session.id)
  return (opened.session, items)

/-- The `menu_items_map` of the accepted lines, in order of first use. -/
def validateItems (restaurantId : Uuid) :
    List CreateOrderItemRequest → List MenuItem → Action (List MenuItem)
  | [], menuItems => pure menuItems
  | line :: lines, menuItems => do
    match ← query (.menuItem line.menuItemId restaurantId) with
    | none =>
      throw (.http 400 ("Món không tồn tại hoặc đã ngừng phục vụ (id: " ++
        toString line.menuItemId ++ ")."))
    | some row =>
      let known := menuItems.find? fun m => m.id == row.id
      let menuItem := known.getD row
      if menuItem.isAvailable then
        validateItems restaurantId lines (if known.isSome then menuItems else menuItems ++ [row])
      else
        throw (.http 400 ("Món '" ++ menuItem.name ++ "' hiện đã hết."))

def newItem (restaurantId orderId : Uuid) (now : Timestamp) (menuItem : MenuItem)
    (line : CreateOrderItemRequest) : NewItem where
  restaurantId := restaurantId
  orderId := orderId
  menuItemId := menuItem.id
  nameSnapshot := menuItem.name
  priceSnapshot := menuItem.price
  prepTimeSnapshot := menuItem.prepTimeMinutes
  quantity := line.quantity
  note := line.note
  requestedAt := now

def newItems (restaurantId orderId : Uuid) (now : Timestamp) (menuItems : List MenuItem)
    (lines : List CreateOrderItemRequest) : List NewItem :=
  lines.filterMap fun line =>
    (menuItems.find? fun m => m.id == line.menuItemId).map fun menuItem =>
      newItem restaurantId orderId now menuItem line

/-- The unit of work sends no `UPDATE` where the value assigned is the one that was loaded. -/
def setLastActivity (tableSession : TableSession) (now : Timestamp) : Action Unit :=
  if now = tableSession.lastActivityAt then pure ()
  else do
    let _ ← command (.setLastActivity tableSession.id now)
    return ()

/-- Steps f to i: one flush for the order, one for its items and the session, and the
commit. A flush takes the mappers in the order of their names. -/
def placeOrder (restaurantId : Uuid) (tableSession : TableSession) (menuItems : List MenuItem)
    (lines : List CreateOrderItemRequest) : Action (Order × List OrderItem) := do
  let now ← appNow
  let rows ← command (.insertOrder restaurantId tableSession.id)
  let order ← scalarOne rows.orders.head?
  let rows ← command (.insertItems (newItems restaurantId order.id now menuItems lines))
  setLastActivity tableSession now
  commit
  return (order, rows.items)

def refreshItems : List OrderItem → Action (List OrderItem)
  | [] => pure []
  | item :: items => do
    let item ← scalarOne (← query (.itemById item.id))
    let items ← refreshItems items
    return item :: items

def publishedItem (i : OrderItem) : PublishedItem := ⟨i.id, i.nameSnapshot, i.quantity, i.status⟩

def publishOrder (restaurantId : Uuid) (order : Order) (items : List OrderItem)
    (tableSessionId : Uuid) : Action Unit := do
  let event := RealtimeEvent.orderCreated order.id order.tableSessionId (items.map publishedItem)
  publish (.kitchen restaurantId) event
  publish (.session restaurantId tableSessionId) event

def createOrder (qrToken : String) (body : CreateOrderRequest) : Action CreateOrderResponse := do
  let (table, restaurant) ← resolveTable qrToken
  let opened ← SessionService.getOrOpen table.id restaurant.id none
  if opened.session.status ≠ .opened then
    throw (.http 400 "Phiên bàn đã đóng, không thể thêm order.")
  else
    let restaurantId ← readAttribute opened.expired restaurant.id
    let menuItems ← validateItems restaurantId body.items []
    let (order, items) ← placeOrder restaurantId opened.session menuItems body.items
    let order ← scalarOne (← query (.orderById order.id))
    let items ← refreshItems items
    publishOrder restaurantId order items opened.session.id
    return ⟨order.id, order.tableSessionId, order.createdAt, items⟩

def publishCancelled (restaurantId sessionId : Uuid) (item : OrderItem) : Action Unit := do
  let event := RealtimeEvent.itemCancelled item.id item.status .customer none
  publish (.kitchen restaurantId) event
  publish (.session restaurantId sessionId) event

def cancelItemCustomer (qrToken : String) (itemId : Uuid) (reason : Option String) :
    Action OrderItem := do
  let (table, restaurant) ← resolveTable qrToken
  let opened ← SessionService.getOrOpen table.id restaurant.id none
  let restaurantId ← readAttribute opened.expired restaurant.id
  if ← query (.itemInSession itemId opened.session.id restaurantId) then
    let updatedItem ← translate conflictToHttp <|
      ItemStateService.cancelItem itemId .customer restaurantId [.pending] reason
    publishCancelled restaurantId opened.session.id updatedItem
    return updatedItem
  else
    throw (.http 404 "Món không tồn tại hoặc không thuộc phiên của bạn.")

/-- `none` is the cooldown answer. -/
def callStaff (qrToken : String) : Action (Option StaffCall) := do
  let (table, restaurant) ← resolveTable qrToken
  let opened ← SessionService.getOrOpen table.id restaurant.id none
  let tableId ← readAttribute opened.expired table.id
  StaffCallService.create tableId opened.session.id restaurant.id

end Customer

namespace Kitchen

def itemMissing : Exn := .http 404 "Món không tồn tại hoặc không thuộc quán của bạn."

def publishUpdated (restaurantId : Uuid) (item : OrderItem) (event : RealtimeEvent) :
    Action Unit := do
  let order ← scalarOne (← query (.orderById item.orderId))
  publish (.kitchen restaurantId) event
  publish (.session restaurantId order.tableSessionId) event

def setItemStatus (user : TokenPayload) (itemId : Uuid) (toStatus : OrderItemStatus) :
    Action OrderItem := do
  if ← query (.itemExists itemId user.restaurantId) then
    let updatedItem ← translate conflictToHttp <|
      ItemStateService.setStatus itemId toStatus (some user.sub) user.restaurantId
    publishUpdated user.restaurantId updatedItem
      (.itemUpdated updatedItem.id updatedItem.status updatedItem.orderId)
    return updatedItem
  else
    throw itemMissing

def cancelItemStaff (user : TokenPayload) (itemId : Uuid) (reason : Option String) :
    Action OrderItem := do
  if ← query (.itemExists itemId user.restaurantId) then
    let updatedItem ← translate conflictToHttp <|
      ItemStateService.cancelItem itemId .staff user.restaurantId [.pending, .cooking, .ready] reason
    publishUpdated user.restaurantId updatedItem
      (.itemCancelled updatedItem.id updatedItem.status .staff (some updatedItem.orderId))
    return updatedItem
  else
    throw itemMissing

def ackStaffCall (user : TokenPayload) (callId : Uuid) : Action StaffCall :=
  translate (valueErrorToHttp 404) (StaffCallService.ack callId user.sub user.restaurantId)

def active (i : OrderItem) (restaurantId : Uuid) : Bool :=
  i.restaurantId == restaurantId && i.status.unserved

/-- The items `GET /kitchen/board` lists, oldest first. -/
def getKitchenBoard (d : Data) (restaurantId : Uuid) : List OrderItem :=
  (d.items.filter fun i => active i restaurantId).mergeSort fun i j => i.requestedAt ≤ j.requestedAt

end Kitchen

namespace StaffTables

open SessionService

def openTable (user : TokenPayload) (tableId : Uuid) : Action TableSession := do
  match ← query (.tableOf tableId user.restaurantId) with
  | none => throw (.http 404 "Bàn không tồn tại hoặc không thuộc quán của bạn.")
  | some table =>
    if table.isActive then
      let opened ← getOrOpen table.id user.restaurantId (some user.sub)
      return opened.session
    else
      throw (.http 400 "Bàn đã ngừng hoạt động.")

def sessionMissing : Exn := .http 404 "Phiên bàn không tồn tại hoặc không thuộc quán của bạn."

def publishClosed (restaurantId sessionId : Uuid) (session : TableSession) (totalAmount : Money) :
    Action Unit := do
  let event := RealtimeEvent.sessionClosed session.id session.tableId totalAmount session.closedAt
  publish (.kitchen restaurantId) event
  publish (.session restaurantId sessionId) event

def checkoutSession (user : TokenPayload) (sessionId : Uuid) : Action CheckoutResult := do
  match ← query (.sessionOf sessionId user.restaurantId) with
  | none => throw sessionMissing
  | some tableSession =>
    match ← checkout sessionId user.restaurantId [tableSession] with
    | none =>
      throw (.http 409 "Phiên bàn đã được đóng hoặc bỏ trước đó. Không thể checkout lại.")
    | some result =>
      publishClosed user.restaurantId sessionId result.session result.totalAmount
      return result

def publishRestored (restaurantId sessionId : Uuid) (result : RestoreResult) : Action Unit :=
  match result.action with
  | .restored => do
    let event := RealtimeEvent.sessionRestored result.session.id result.session.tableId
    publish (.kitchen restaurantId) event
    publish (.session restaurantId sessionId) event
  | .checkedOut =>
    publishClosed restaurantId sessionId result.session (result.totalAmount.getD 0)

def restoreSession (user : TokenPayload) (sessionId : Uuid) : Action RestoreResult := do
  match ← translate (valueErrorToHttp 400) (restore sessionId user.restaurantId) with
  | none => throw sessionMissing
  | some result =>
    publishRestored user.restaurantId sessionId result
    return result

end StaffTables

namespace Gateway

def resolveQrToken (qrToken : String) : Action (Option (Table × Uuid)) := do
  match ← query (.tableByToken qrToken) with
  | none => return none
  | some table =>
    match ← query (.activeRestaurant table.restaurantId) with
    | none => return none
    | some restaurant => return some (table, restaurant.id)

/-- `ws_customer` up to its subscription; `none` where it closes the socket with 4404. -/
def wsCustomer (qrToken : String) : Action (Option Channel) := do
  match ← resolveQrToken qrToken with
  | none => return none
  | some (table, restaurantId) =>
    let opened ← SessionService.getOrOpen table.id restaurantId none
    return some (.session restaurantId opened.session.id)

end Gateway

inductive Request
  | getSessionSnapshot (qrToken : String)
  | createOrder (qrToken : String) (body : CreateOrderRequest)
  | cancelItemCustomer (qrToken : String) (itemId : Uuid) (reason : Option String)
  | callStaff (qrToken : String)
  | openTable (user : TokenPayload) (tableId : Uuid)
  | setItemStatus (user : TokenPayload) (itemId : Uuid) (toStatus : OrderItemStatus)
  | cancelItemStaff (user : TokenPayload) (itemId : Uuid) (reason : Option String)
  | ackStaffCall (user : TokenPayload) (callId : Uuid)
  | checkoutSession (user : TokenPayload) (sessionId : Uuid)
  | restoreSession (user : TokenPayload) (sessionId : Uuid)
  | wsCustomer (qrToken : String)
  | runSweep
  /-- `_abandon_session` on one session, whether or not it is stale. -/
  | abandonSession (sessionId : Uuid)

inductive Response
  | snapshot (session : TableSession) (items : List OrderItem)
  | order (response : CreateOrderResponse)
  | item (item : OrderItem)
  | call (call : Option StaffCall)
  | session (session : TableSession)
  | checkout (result : SessionService.CheckoutResult)
  | restore (result : SessionService.RestoreResult)
  | subscribed (channel : Option Channel)
  | done
  deriving DecidableEq, Repr

def Response.asSession : Response → Option TableSession
  | session s => some s
  | _ => none

def Response.asCheckout : Response → Option SessionService.CheckoutResult
  | checkout result => some result
  | _ => none

theorem Response.asSession_eq {a : Response} {s : TableSession} (h : a.asSession = some s) :
    a = .session s := by
  cases a <;> simp_all [asSession]

theorem Response.asCheckout_eq {a : Response} {result : SessionService.CheckoutResult}
    (h : a.asCheckout = some result) : a = .checkout result := by
  cases a <;> simp_all [asCheckout]

def Request.handler : Request → Action Response
  | getSessionSnapshot qrToken => do
    let (session, items) ← Customer.getSessionSnapshot qrToken
    return .snapshot session items
  | createOrder qrToken body => do return .order (← Customer.createOrder qrToken body)
  | cancelItemCustomer qrToken itemId reason => do
    return .item (← Customer.cancelItemCustomer qrToken itemId reason)
  | callStaff qrToken => do return .call (← Customer.callStaff qrToken)
  | openTable user tableId => do return .session (← StaffTables.openTable user tableId)
  | setItemStatus user itemId toStatus => do
    return .item (← Kitchen.setItemStatus user itemId toStatus)
  | cancelItemStaff user itemId reason => do
    return .item (← Kitchen.cancelItemStaff user itemId reason)
  | ackStaffCall user callId => do return .call (some (← Kitchen.ackStaffCall user callId))
  | checkoutSession user sessionId => do
    return .checkout (← StaffTables.checkoutSession user sessionId)
  | restoreSession user sessionId => do
    return .restore (← StaffTables.restoreSession user sessionId)
  | wsCustomer qrToken => do return .subscribed (← Gateway.wsCustomer qrToken)
  | runSweep => do Scheduler.runSweep; return .done
  | abandonSession sessionId => do
    match ← query (.sessionById sessionId) with
    | none => return .done
    | some row => Scheduler.abandonSession row.id row.restaurantId; return .done

end QOrder
