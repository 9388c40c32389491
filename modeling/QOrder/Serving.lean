import QOrder.RegionHandlers
import QOrder.Tenancy

/-! One operation at a time, with its clock readings and its generated ids given. -/

namespace QOrder

open KeyedTable Concurrency

/-- What an operation draws from outside: the clocks it reads and the ids it generates. -/
structure Moment where
  clock : Timestamp
  appClock : Timestamp
  nextUuid : Uuid

/-- An operation that has the database to itself, from its first statement to its end. -/
def Request.execute (r : Request) (w : Moment) (c : Catalog) (d : Data) : Except Exn Response × Sys 1 :=
  (Sys.start 1 c d w.clock w.appClock w.nextUuid).alone r.handler

def Request.response (r : Request) (w : Moment) (c : Catalog) (d : Data) : Except Exn Response :=
  (r.execute w c d).1

/-- The data an operation leaves. -/
def Request.effect (r : Request) (w : Moment) (c : Catalog) (d : Data) : Data := (r.execute w c d).2.data

/-- What an operation publishes on a channel. -/
def Request.messages (r : Request) (w : Moment) (c : Catalog) (d : Data) (channel : Channel) :
    List RealtimeEvent :=
  messagesOn channel (r.execute w c d).2.history

/-- The operation generates the id. -/
def Request.Generates (r : Request) (w : Moment) (c : Catalog) (d : Data) (id : Uuid) : Prop :=
  w.nextUuid ≤ id ∧ id < (r.execute w c d).2.nextUuid

/-- The same rows, in whatever order. -/
structure Data.Same (d d' : Data) : Prop where
  sessions : d.sessions.Perm d'.sessions
  orders : d.orders.Perm d'.orders
  items : d.items.Perm d'.items
  calls : d.calls.Perm d'.calls

variable {n : Nat} {owner : Uuid → Uuid} {req : Fin n → Request} {D : Deployment owner}
  {p : Clients n} {r : Request} {w : Moment}

/-- The database of a run, when the next operation begins. -/
def Deployment.Reaches.at_ (hr : D.Reaches req p) (w : Moment) (hw : p.state.nextUuid ≤ w.nextUuid) :
    Deployment owner :=
  { hr.next with
    clock := w.clock
    appClock := w.appClock
    nextUuid := w.nextUuid
    below := hr.inv.below.mono hw }

/-- An operation alone is a run of the database. -/
theorem Deployment.Reaches.execute (hr : D.Reaches req p) (hw : p.state.nextUuid ≤ w.nextUuid) (r : Request) :
    ∃ q : Clients 1, (hr.at_ w hw).Reaches (fun _ : Fin 1 => r) q ∧
      q.state = (r.execute w p.state.catalog p.state.data).2 ∧
      (q.threads 0).answer = some (r.response w p.state.catalog p.state.data) := by
  refine ⟨_, reachable_alone owner _ _, rfl, ?_⟩
  simp only [Request.response]
  split <;> (rename_i a ha; exact congrArg some ha.symm)

theorem Deployment.Reaches.effect_ok (hr : D.Reaches req p) (hw : p.state.nextUuid ≤ w.nextUuid)
    (r : Request) : (r.effect w p.state.catalog p.state.data).Ok owner := by
  obtain ⟨q, hq, hstate, -⟩ := hr.execute hw r
  have hok := hq.inv.ok
  rw [hstate] at hok
  exact hok

section Regions

variable {ζ : Type} [DecidableEq ζ] {m : Atlas ζ} {z : ζ} {c c' : Catalog} {d d' : Data}

/-- What an operation of a region does in two databases. -/
structure Request.Same (r : Request) (w : Moment) (m : Atlas ζ) (z : ζ) (c c' : Catalog) (d d' : Data) :
    Prop where
  response : r.response w c' d' = r.response w c d
  messages : r.messages w c' d' = r.messages w c d
  part : (r.effect w c' d').part m z = (r.effect w c d).part m z
  rest : ∀ x, x ≠ z → (r.effect w c d).part m x = d.part m x
  rest' : ∀ x, x ≠ z → (r.effect w c' d').part m x = d'.part m x
  placed : (r.effect w c d).Placed m
  placed' : (r.effect w c' d').Placed m

/-- An operation of a region answers and does the same in databases that agree on the region,
and does nothing elsewhere. -/
theorem Request.same (hr : r.Within m z) (hc : c.Charted m z) (hc' : c'.Charted m z)
    (hcc : c.Alike m z c') (hd : d.Placed m) (hd' : d'.Placed m) (hp : d'.part m z = d.part m z)
    (hf : ∀ id, r.Generates w c d id → m.Free id z) : r.Same w m z c c' d d' := by
  have hids : ∀ id, w.nextUuid ≤ id → id < (r.execute w c d).2.nextUuid → m.Free id z :=
    fun id hle hlt => hf id ⟨hle, hlt⟩
  have hlocal : (Sys.start 1 c d w.clock w.appClock w.nextUuid).Local m z _ d := .start hc hd hids
  have hlocal' : (Sys.start 1 c' d' w.clock w.appClock w.nextUuid).Local m z _ d' := .start hc' hd' hids
  obtain ⟨hresponse, ⟨halike, hechoes⟩, hend, hend'⟩ :=
    r.keepsTo hr |>.alone hlocal hlocal' (.start hcc hp) (fun _ => rfl) le_rfl
  exact ⟨hresponse, funext hechoes, halike.part, hend.rest, hend'.rest, hend.placed, hend'.placed⟩

end Regions

end QOrder
