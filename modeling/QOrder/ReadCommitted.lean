import QOrder.Interleaving
import QOrder.Routers

/-! PostgreSQL under READ COMMITTED. Each statement sees the committed rows under the
row versions its own transaction has written, and the rows a transaction has written
stay locked until it ends. A statement that needs a locked row is not executed. -/

namespace QOrder

open KeyedTable Concurrency

instance neZero_one : NeZero 1 :=
  ⟨Nat.one_ne_zero⟩

/-- One executed statement, with the committed rows around it. -/
structure Event (n : Nat) where
  client : Fin n
  stmt : Stmt
  resp : Except DbError stmt.Resp
  now : Timestamp
  clock : Timestamp
  appClock : Timestamp
  catalog : Catalog
  before : Data
  after : Data

structure Sys (n : Nat) where
  catalog : Catalog
  data : Data
  writes : Fin n → Data
  /-- `now()` of the transactions that have begun. -/
  began : Fin n → Option Timestamp
  clock : Timestamp
  appClock : Timestamp
  nextUuid : Uuid
  history : List (Event n)

namespace Sys

variable {n : Nat} (σ : Sys n) (t : Fin n)

def view : Data := σ.data.overlay (σ.writes t)

def now : Timestamp := (σ.began t).getD σ.clock

def ctx : Ctx := ⟨σ.now t, σ.nextUuid⟩

def rows (c : Command) : Data := c.rows (σ.ctx t) (σ.view t)

def begin_ : Sys n := { σ with began := Function.update σ.began t (some (σ.now t)) }

def abort : Sys n :=
  { σ with
    writes := Function.update σ.writes t {}
    began := Function.update σ.began t none }

def commit : Sys n :=
  { σ with
    data := σ.view t
    writes := Function.update σ.writes t {}
    began := Function.update σ.began t none }

def write (c : Command) : Sys n :=
  { σ.begin_ t with
    writes := Function.update σ.writes t ((σ.writes t).overlay (σ.rows t c))
    nextUuid := σ.nextUuid + c.generated }

/-- What a statement answers and does when nothing blocks it. -/
def answer : (q : Stmt) → Except DbError q.Resp × Sys n
  | .query q => (.ok (q.eval (σ.ctx t) σ.catalog (σ.view t)), σ.begin_ t)
  | .command c =>
    match c.violation (σ.ctx t) (σ.view t) with
    | some e => (.error e, σ.abort t)
    | none => (.ok (σ.rows t c), σ.write t c)
  | .commit => (.ok (), σ.commit t)
  | .rollback => (.ok (), σ.abort t)
  | .appNow => (.ok σ.appClock, σ)
  | .publish _ _ => (.ok (), σ)

def event (q : Stmt) (r : Except DbError q.Resp) (after : Data) : Event n :=
  ⟨t, q, r, σ.now t, σ.clock, σ.appClock, σ.catalog, σ.data, after⟩

def record (q : Stmt) (r : Except DbError q.Resp) (σ' : Sys n) : Sys n :=
  { σ' with history := σ.history ++ [σ.event t q r σ'.data] }

/-- Executes a statement that nothing blocks. -/
def perform (q : Stmt) : Except DbError q.Resp × Sys n :=
  ((σ.answer t q).1, σ.record t q (σ.answer t q).1 (σ.answer t q).2)

/-- The statement fails and its transaction is aborted, as for a deadlock victim. -/
def kill (q : Stmt) : Sys n := σ.record t q (.error .operational) (σ.abort t)

end Sys

def overlaps {V : Type} [Keyed V Uuid] (rows locked : List V) : Bool :=
  rows.any fun r => (lookup (key r) locked).isSome

def Data.overlaps (rows locked : Data) : Bool :=
  QOrder.overlaps rows.sessions locked.sessions || QOrder.overlaps rows.orders locked.orders ||
    QOrder.overlaps rows.items locked.items || QOrder.overlaps rows.calls locked.calls

namespace Sys

variable {n : Nat} (σ : Sys n)

/-- The unfinished transaction `u` adds, removes or rewrites an index entry of the table. -/
def holdsEntry (u : Fin n) (tableId : Uuid) : Bool :=
  (σ.writes u).sessions.any fun r => r.tableId == tableId &&
    (r.status == .opened || (lookup r.id σ.data.sessions).any fun s => s.status == .opened)

/-- `t` has to wait for `u` before it can execute the command. -/
def waitsFor (t u : Fin n) (c : Command) : Bool :=
  u != t && ((σ.rows t c).overlaps (σ.writes u) ||
    (c.indexEntries (σ.ctx t) (σ.view t)).any fun e => σ.holdsEntry u e.1)

def blocked (t : Fin n) : Stmt → Bool
  | .command c => (List.finRange n).any fun u => σ.waitsFor t u c
  | _ => false

end Sys

def Stmt.isCommand : Stmt → Bool
  | command _ => true
  | _ => false

inductive Exec {n : Nat} (t : Fin n) (q : Stmt) (σ : Sys n) : Except DbError q.Resp → Sys n → Prop
  | perform (hb : σ.blocked t q = false) : Exec t q σ (σ.perform t q).1 (σ.perform t q).2
  | kill (hq : q.isCommand = true) : Exec t q σ (.error .operational) (σ.kill t q)

/-- Every table belongs to the restaurant `owner` gives it; no edit moves a table. -/
def Catalog.Owned (owner : Uuid → Uuid) (c : Catalog) : Prop :=
  ∀ t ∈ c.tables, t.restaurantId = owner t.id

/-- The database clock advances, the application clocks show anything, and the
administrators edit the catalog. -/
inductive Env (owner : Uuid → Uuid) {n : Nat} (σ : Sys n) : Sys n → Prop
  | tick (clock appClock : Timestamp) (h : σ.clock ≤ clock) : Env owner σ { σ with clock, appClock }
  | edit (catalog : Catalog) (h : catalog.Owned owner) : Env owner σ { σ with catalog }

def machine (owner : Uuid → Uuid) (n : Nat) :
    Machine (Fin n) (Sys n) Stmt Stmt.Resp DbError where
  exec := Exec
  env := Env owner

/-- A database on which none of `n` clients has begun. -/
def Sys.start (n : Nat) (catalog : Catalog) (data : Data) (clock appClock : Timestamp)
    (nextUuid : Uuid) : Sys n where
  catalog := catalog
  data := data
  writes _ := {}
  began _ := none
  clock := clock
  appClock := appClock
  nextUuid := nextUuid
  history := []

end QOrder
