import QOrder.Consistency
import QOrder.Statements

/-! What an unfinished transaction has written so far, as a function of the committed
rows. A holding is valid where the committed rows justify each of its row versions. -/

namespace QOrder

open KeyedTable

/-- The changes of an item that its compare-and-swap updates allow. -/
inductive OrderItem.Move (now : Timestamp) (i : OrderItem) : OrderItem → Prop
  | cook (h : i.status = .pending) : Move now i (i.advance .cooking)
  | ready (h : i.status = .pending ∨ i.status = .cooking) : Move now i (i.advance .ready)
  | serve (actorUserId : Option Uuid) (h : i.isUnserved = true) :
      Move now i (i.serve .served actorUserId now)
  | undo (h : i.status = .served) (hu : i.undoable now = true) : Move now i (i.undo .pending)
  | cancel (cancelledBy : CancelledBy) (cancelReason : Option String) (h : i.isUnserved = true) :
      Move now i (i.cancel cancelledBy now cancelReason)

inductive Leave
  | close | abandon
  deriving DecidableEq, Repr

def Leave.reason : Leave → String
  | close => "table_closed"
  | abandon => "session_abandoned"

/-- How far the transaction that takes a session out of use has come. -/
inductive Stage
  | marked | cancelled | totalled | dismissed
  deriving DecidableEq, Repr

def Leave.row (now : Timestamp) (d : Data) (s : TableSession) : Leave → Stage → TableSession
  | abandon, _ => s.abandon now
  | close, .marked | close, .cancelled => s.close now
  | close, .totalled | close, .dismissed => (s.close now).setTotal (servedTotal (d.itemsOf s.id))

/-- The cancelled versions of the unserved items. -/
def cancelUnserved (now : Timestamp) (reason : String) (items : List OrderItem) : List OrderItem :=
  changed OrderItem.isUnserved (fun i => i.cancel .system now (some reason)) items

/-- In `leaving` the items are those of the session when they were last read or cancelled. -/
inductive Holding
  | nothing
  | opening (s : TableSession)
  | reopening (s : TableSession)
  | leaving (s : TableSession) (items : List OrderItem) (kind : Leave) (stage : Stage)
  | moving (i i' : OrderItem)
  | moved (i i' : OrderItem) (s : TableSession)
  | ordering (o : Order) (items : List OrderItem)
  | ordered (o : Order) (items : List OrderItem) (s : TableSession) (lastActivityAt : Timestamp)
  | touching (s : TableSession)
  | calling (s : TableSession) (c : StaffCall)
  | acking (c c' : StaffCall)

namespace Data

def NoOpen (d : Data) (tableId : Uuid) : Prop :=
  ∀ s ∈ d.sessions, s.tableId = tableId → s.status ≠ .opened

/-- A new order of a session of `d`, with its items, all of one restaurant. -/
structure NewOrder (d : Data) (o : Order) (items : List OrderItem) : Prop where
  orderNew : lookup o.id d.orders = none
  session : ∃ s, lookup o.tableSessionId d.sessions = some s ∧ s.restaurantId = o.restaurantId
  itemIds : UniqueKeys items
  itemNew : ∀ i ∈ items, lookup i.id d.items = none
  itemOrder : ∀ i ∈ items, i.orderId = o.id
  itemRestaurant : ∀ i ∈ items, i.restaurantId = o.restaurantId
  pending : ∀ i ∈ items, i.status = .pending
  columns : ∀ i ∈ items, i.Columns

structure NewSession (owner : Uuid → Uuid) (now : Timestamp) (d : Data) (s : TableSession) :
    Prop where
  new : lookup s.id d.sessions = none
  restaurant : s.restaurantId = owner s.tableId
  opened : s.status = .opened
  columns : s.Columns
  activity : s.lastActivityAt = now
  noOpen : d.NoOpen s.tableId

/-- The items of the session are these, and others that orders without its lock have added. -/
def ItemsSince (d : Data) (sessionId : Uuid) (items : List OrderItem) : Prop :=
  ∃ late, d.itemsOf sessionId = items ++ late ∧ ∀ i ∈ late, i.status = .pending

structure NewCall (d : Data) (s : TableSession) (c : StaffCall) : Prop where
  new : lookup c.id d.calls = none
  session : lookup s.id d.sessions = some s
  tableSessionId : c.tableSessionId = s.id
  tableId : c.tableId = s.tableId
  restaurant : s.restaurantId = c.restaurantId

end Data

namespace Holding

def writes (now : Timestamp) (d : Data) : Holding → Data
  | nothing => {}
  | opening s => { sessions := [s] }
  | reopening s => { sessions := [s.reopen now] }
  | leaving s items kind stage =>
    { sessions := [kind.row now d s stage]
      items := if stage = .marked then [] else cancelUnserved now kind.reason items
      calls := if stage = .dismissed then d.dismissedCalls s.id s.restaurantId now else [] }
  | moving _ i' => { items := [i'] }
  | moved _ i' s => { sessions := [s.touch now], items := [i'] }
  | ordering o items => { orders := [o], items := items }
  | ordered o items s lastActivityAt =>
    { sessions := [s.touch lastActivityAt], orders := [o], items := items }
  | touching s => { sessions := [s.touch now] }
  | calling s c => { sessions := [s.touch now], calls := [c] }
  | acking _ c' => { calls := [c'] }

@[simp] theorem writes_nothing (now : Timestamp) (d : Data) : nothing.writes now d = {} := rfl

def Valid (owner : Uuid → Uuid) (now : Timestamp) (d : Data) : Holding → Prop
  | nothing => True
  | opening s => d.NewSession owner now s
  | reopening s =>
    lookup s.id d.sessions = some s ∧ s.status = .abandoned ∧ d.NoOpen s.tableId
  | leaving s items kind _ =>
    lookup s.id d.sessions = some s ∧
      (s.status = .opened ∨ s.status = .abandoned ∧ kind = .close) ∧ d.ItemsSince s.id items
  | moving i i' => lookup i.id d.items = some i ∧ i.Move now i'
  | moved i i' s =>
    lookup i.id d.items = some i ∧ i.Move now i' ∧ lookup s.id d.sessions = some s ∧
      d.inSession s.id i = true
  | ordering o items => d.NewOrder o items
  | ordered o items s _ =>
    d.NewOrder o items ∧ lookup s.id d.sessions = some s ∧ o.tableSessionId = s.id
  | touching s => lookup s.id d.sessions = some s
  | calling s c => d.NewCall s c
  | acking c c' => lookup c.id d.calls = some c ∧ ∃ at_ by_, c' = c.acknowledge at_ by_

/-- The transaction may commit. -/
def Complete : Holding → Prop
  | opening _ | reopening _ | leaving _ _ _ .dismissed | moved _ _ _ | ordering _ _
  | ordered _ _ _ _ | calling _ _ | acking _ _ => True
  | _ => False

/-- The holding is the order with these items, with its session's row or without. -/
inductive Places (o : Order) (items : List OrderItem) : Holding → Prop
  | ordering : Places o items (ordering o items)
  | ordered (s : TableSession) (lastActivityAt : Timestamp) :
      Places o items (ordered o items s lastActivityAt)

namespace Places

variable {owner : Uuid → Uuid} {now : Timestamp} {d : Data} {o : Order} {items : List OrderItem} {h : Holding}

theorem complete (hp : h.Places o items) : h.Complete := by cases hp <;> trivial

theorem newOrder (hp : h.Places o items) (hv : h.Valid owner now d) : d.NewOrder o items := by
  cases hp with
  | ordering => exact hv
  | ordered s lastActivityAt => exact hv.1

theorem writes_orders (hp : h.Places o items) : (h.writes now d).orders = [o] := by cases hp <;> rfl

theorem writes_items (hp : h.Places o items) : (h.writes now d).items = items := by cases hp <;> rfl

end Places

end Holding

end QOrder
