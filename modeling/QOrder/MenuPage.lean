import QOrder.Rounding
import QOrder.Routers

/-! The customer's menu page: the items that it shows, the handler of the session's
messages, and what it makes of the answer to its own order. -/

namespace QOrder

open KeyedTable

/-- An item on the page. A field that no message has brought is undefined. -/
structure MenuPage.SessionItem where
  id : Uuid
  orderId : Option Uuid
  menuItemId : Option Uuid
  nameSnapshot : String
  priceSnapshot : Option Money
  prepTimeSnapshot : Option Nat
  quantity : Nat
  note : Option (Option String)
  status : OrderItemStatus
  requestedAt : Option Timestamp
  servedAt : Option Timestamp
  cancelledAt : Option Timestamp
  cancelledBy : Option CancelledBy
  cancelReason : Option String
  deriving DecidableEq, Repr

namespace MenuPage

/-- An item of `GET /t/{qr_token}/session`. -/
def ofRow (i : OrderItem) : SessionItem where
  id := i.id
  orderId := some i.orderId
  menuItemId := some i.menuItemId
  nameSnapshot := i.nameSnapshot
  priceSnapshot := some i.priceSnapshot
  prepTimeSnapshot := some i.prepTimeSnapshot
  quantity := i.quantity
  note := some i.note
  status := i.status
  requestedAt := some i.requestedAt
  servedAt := i.servedAt
  cancelledAt := i.cancelledAt
  cancelledBy := i.cancelledBy
  cancelReason := i.cancelReason

/-- An item of `order.created`. -/
def ofPublished (i : PublishedItem) : SessionItem where
  id := i.id
  orderId := none
  menuItemId := none
  nameSnapshot := i.nameSnapshot
  priceSnapshot := none
  prepTimeSnapshot := none
  quantity := i.quantity
  note := none
  status := i.status
  requestedAt := none
  servedAt := none
  cancelledAt := none
  cancelledBy := none
  cancelReason := none

/-- An item of the answer to `createOrder`, as `handleSubmitOrder` completes it. -/
def ofResponse (orderId : Uuid) (oi : OrderItem) : SessionItem :=
  { ofRow oi with
    orderId := some orderId, servedAt := none, cancelledAt := none, cancelledBy := none,
    cancelReason := none }

abbrev Page := List SessionItem

/-- `now` is the browser's clock. -/
def handleWsEvent (now : Timestamp) (page : Page) : RealtimeEvent → Page
  | .itemUpdated id status _ => page.map fun i => if i.id = id then { i with status } else i
  | .itemCancelled id _ _ _ =>
    page.map fun i =>
      if i.id = id then { i with status := .cancelled, cancelledAt := some now } else i
  | .orderCreated _ _ items =>
    page ++ (items.filter fun i => !(page.map SessionItem.id).contains i.id).map ofPublished
  | .sessionClosed _ _ _ _ | .sessionAbandoned _ _ | .sessionRestored _ _
  | .staffCallNew _ _ _ _ _ | .staffCallAck _ _ _ _ _ _ => page

/-- The page after messages, each with the time at which it is handled. -/
def receive (events : List (Timestamp × RealtimeEvent)) (page : Page) : Page :=
  events.foldl (fun page e => handleWsEvent e.1 page e.2) page

/-- `Map.prototype.set`: an entry that exists keeps its place. -/
def mapSet (byId : Page) (item : SessionItem) : Page :=
  if (byId.map SessionItem.id).contains item.id then byId.map fun i => if i.id = item.id then item else i
  else byId ++ [item]

/-- The upsert of `handleSubmitOrder`. The new items have every field, so nothing is left
of the entry that `{ ...byId.get(item.id), ...item }` starts from. -/
def handleSubmitOrder (orderId : Uuid) (items : List OrderItem) (page : Page) : Page :=
  (items.map (ofResponse orderId)).foldl mapSet (page.foldl mapSet [])

/-- `parseFloat(i.price_snapshot) || 0`, of a decimal text with two places. -/
def parseFloat (priceSnapshot : Option Money) : Rat := Binary64.nearest ((priceSnapshot.getD 0 : Int) / 100)

def orderedSubtotal (page : Page) : Rat :=
  (page.filter fun i => i.status ≠ .cancelled).foldl
    (fun sum i => Binary64.nearest (sum + Binary64.nearest (parseFloat i.priceSnapshot * i.quantity))) 0

end MenuPage

end QOrder
