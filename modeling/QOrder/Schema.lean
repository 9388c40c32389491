import Mathlib.Algebra.Order.Ring.Int
import QOrder.KeyedTable

/-! The tables the ordering flow reads and writes. Ids are generated by the database,
timestamps count microseconds and amounts are `NUMERIC(12,2)` values in hundredths. -/

namespace QOrder

open KeyedTable

abbrev Uuid := Nat

abbrev Timestamp := Int

abbrev Money := Int

inductive OrderItemStatus
  | pending | cooking | ready | served | cancelled
  deriving DecidableEq, Repr

inductive SessionStatus
  | opened | closed | abandoned
  deriving DecidableEq, Repr

inductive CancelledBy
  | customer | staff | system
  deriving DecidableEq, Repr

inductive StaffCallStatus
  | pending | acknowledged
  deriving DecidableEq, Repr

structure Restaurant where
  id : Uuid
  isActive : Bool := true
  deriving DecidableEq, Repr

structure RestaurantSettings where
  restaurantId : Uuid
  sessionTimeoutHours : Nat := 6
  staffCallCooldownSeconds : Nat := 60
  deriving DecidableEq, Repr

structure Table where
  id : Uuid
  restaurantId : Uuid
  qrToken : String
  isActive : Bool := true
  deriving DecidableEq, Repr

structure MenuItem where
  id : Uuid
  restaurantId : Uuid
  name : String
  price : Money
  prepTimeMinutes : Nat
  isAvailable : Bool := true
  isActive : Bool := true
  deriving DecidableEq, Repr

structure TableSession where
  id : Uuid
  restaurantId : Uuid
  tableId : Uuid
  status : SessionStatus
  openedBy : Option Uuid
  openedAt : Timestamp
  lastActivityAt : Timestamp
  closedAt : Option Timestamp
  abandonedAt : Option Timestamp
  totalAmount : Option Money
  deriving DecidableEq, Repr

structure Order where
  id : Uuid
  restaurantId : Uuid
  tableSessionId : Uuid
  createdAt : Timestamp
  deriving DecidableEq, Repr

structure OrderItem where
  id : Uuid
  restaurantId : Uuid
  orderId : Uuid
  menuItemId : Uuid
  nameSnapshot : String
  priceSnapshot : Money
  prepTimeSnapshot : Nat
  quantity : Nat
  note : Option String
  status : OrderItemStatus
  requestedAt : Timestamp
  servedBy : Option Uuid
  servedAt : Option Timestamp
  cancelledBy : Option CancelledBy
  cancelledAt : Option Timestamp
  cancelReason : Option String
  deriving DecidableEq, Repr

structure StaffCall where
  id : Uuid
  restaurantId : Uuid
  tableId : Uuid
  tableSessionId : Uuid
  status : StaffCallStatus
  createdAt : Timestamp
  acknowledgedAt : Option Timestamp
  acknowledgedBy : Option Uuid
  deriving DecidableEq, Repr

instance : Keyed TableSession Uuid := ⟨TableSession.id⟩
instance : Keyed Order Uuid := ⟨Order.id⟩
instance : Keyed OrderItem Uuid := ⟨OrderItem.id⟩
instance : Keyed StaffCall Uuid := ⟨StaffCall.id⟩

@[simp] theorem key_session (s : TableSession) : key s = s.id := rfl
@[simp] theorem key_order (o : Order) : key o = o.id := rfl
@[simp] theorem key_item (i : OrderItem) : key i = i.id := rfl
@[simp] theorem key_call (c : StaffCall) : key c = c.id := rfl

/-- What the administrators edit. -/
structure Catalog where
  restaurants : List Restaurant := []
  settings : List RestaurantSettings := []
  tables : List Table := []
  menuItems : List MenuItem := []
  deriving DecidableEq, Repr

/-- What the ordering flow writes; also the row versions a transaction has written. -/
structure Data where
  sessions : List TableSession := []
  orders : List Order := []
  items : List OrderItem := []
  calls : List StaffCall := []
  deriving DecidableEq, Repr

namespace Data

def overlay (d w : Data) : Data where
  sessions := KeyedTable.overlay d.sessions w.sessions
  orders := KeyedTable.overlay d.orders w.orders
  items := KeyedTable.overlay d.items w.items
  calls := KeyedTable.overlay d.calls w.calls

@[simp] theorem overlay_sessions (d w : Data) :
    (d.overlay w).sessions = KeyedTable.overlay d.sessions w.sessions := rfl
@[simp] theorem overlay_orders (d w : Data) :
    (d.overlay w).orders = KeyedTable.overlay d.orders w.orders := rfl
@[simp] theorem overlay_items (d w : Data) :
    (d.overlay w).items = KeyedTable.overlay d.items w.items := rfl
@[simp] theorem overlay_calls (d w : Data) :
    (d.overlay w).calls = KeyedTable.overlay d.calls w.calls := rfl

@[simp] theorem overlay_empty (d : Data) : d.overlay {} = d := by simp [overlay]

/-- `order_id IN (SELECT id FROM orders WHERE table_session_id = :session_id)` -/
def inSession (d : Data) (sessionId : Uuid) (i : OrderItem) : Bool :=
  d.orders.any fun o => o.id == i.orderId && o.tableSessionId == sessionId

def itemsOf (d : Data) (sessionId : Uuid) : List OrderItem :=
  d.items.filter (d.inSession sessionId)

def pendingCalls (d : Data) (sessionId restaurantId : Uuid) : List StaffCall :=
  d.calls.filter fun c =>
    c.tableSessionId == sessionId && c.restaurantId == restaurantId && c.status == .pending

end Data

/-- `status IN ('pending', 'cooking', 'ready')` -/
def OrderItemStatus.unserved : OrderItemStatus → Bool
  | .pending | .cooking | .ready => true
  | .served | .cancelled => false

def OrderItem.isUnserved (i : OrderItem) : Bool := i.status.unserved

def OrderItem.amount (i : OrderItem) : Money := i.priceSnapshot * i.quantity

def servedTotal (items : List OrderItem) : Money :=
  ((items.filter fun i => i.status == .served).map OrderItem.amount).sum

def hours (n : Nat) : Int := n * 3600000000

def seconds (n : Nat) : Int := n * 1000000

end QOrder
