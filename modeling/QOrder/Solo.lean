import QOrder.Serving

/-! An operation that has the database to itself, on plain states: the committed rows,
the row versions its transaction has written, and the messages it has published. -/

namespace QOrder

open KeyedTable Concurrency

structure Solo where
  catalog : Catalog
  data : Data
  writes : Data := {}
  clock : Timestamp
  appClock : Timestamp
  nextUuid : Uuid
  sent : List (Channel × RealtimeEvent) := []

variable {α β : Type} {s s' : Solo} {a : Action α} {f : α → Action β} {b : α} {e : Exn}

namespace Solo

def view (s : Solo) : Data := s.data.overlay s.writes

def ctx (s : Solo) : Ctx := ⟨s.clock, s.nextUuid⟩

def rows (s : Solo) (c : Command) : Data := c.rows s.ctx s.view

def write (s : Solo) (c : Command) : Solo :=
  { s with writes := s.writes.overlay (s.rows c), nextUuid := s.nextUuid + c.generated }

def commit (s : Solo) : Solo := { s with data := s.view, writes := {} }

def abort (s : Solo) : Solo := { s with writes := {} }

def publish (s : Solo) (channel : Channel) (event : RealtimeEvent) : Solo :=
  { s with sent := s.sent ++ [(channel, event)] }

def exec (q : Stmt) (s : Solo) : Except DbError q.Resp × Solo :=
  match q with
  | .query q => (.ok (q.eval s.ctx s.catalog s.view), s)
  | .command c =>
    match c.violation s.ctx s.view with
    | some e => (.error e, s.abort)
    | none => (.ok (s.rows c), s.write c)
  | .commit => (.ok (), s.commit)
  | .rollback => (.ok (), s.abort)
  | .appNow => (.ok s.appClock, s)
  | .publish channel event => (.ok (), s.publish channel event)

def run (s : Solo) (a : Action α) : Except Exn α × Solo := Prog.run exec a s

/-- The messages published on a channel, in their order. -/
def messagesOn (s : Solo) (channel : Channel) : List RealtimeEvent :=
  s.sent.filterMap fun m => if m.1 = channel then some m.2 else none

/-- The same event on two channels. -/
theorem messagesOn_both {a b : Channel} (h : s.sent = []) (hne : a ≠ b) (event : RealtimeEvent)
    (channel : Channel) : ((s.publish a event).publish b event).messagesOn channel =
      if channel = a ∨ channel = b then [event] else [] := by
  have hsent : ((s.publish a event).publish b event).sent = [(a, event), (b, event)] := by
    simp [publish, h]
  rw [messagesOn, hsent]
  by_cases ha : a = channel
  · have hb : b ≠ channel := fun hb => hne (ha.trans hb.symm)
    simp [ha, hb]
  · by_cases hb : b = channel
    · simp [hb, Ne.symm ha, ha]
    · simp [ha, hb, Ne.symm ha, Ne.symm hb]

@[simp] theorem run_ret (b : α) : s.run (.ret b) = (.ok b, s) := rfl

@[simp] theorem run_pure (b : α) : s.run (pure b) = (.ok b, s) := rfl

@[simp] theorem run_raise (e : Exn) : s.run (.raise e : Action α) = (.error e, s) := rfl

@[simp] theorem run_throw (e : Exn) : s.run (throw e : Action α) = (.error e, s) := rfl

theorem run_bind (s : Solo) (a : Action α) (f : α → Action β) :
    s.run (a >>= f) =
      match (s.run a).1 with
      | .ok b => (s.run a).2.run (f b)
      | .error e => (.error e, (s.run a).2) := by
  induction a generalizing s with
  | ret a => rfl
  | raise e => rfl
  | stmt q k ih => exact ih _ _

theorem bind_ok (h : s.run a = (.ok b, s')) : s.run (a >>= f) = s'.run (f b) := by
  rw [run_bind, h]

theorem bind_error (h : s.run a = (.error e, s')) : s.run (a >>= f) = (.error e, s') := by
  rw [run_bind, h]

theorem run_tryCatch (s : Solo) (a : Action α) (f : Exn → Action α) :
    s.run (a.tryCatch f) =
      match (s.run a).1 with
      | .ok b => (.ok b, (s.run a).2)
      | .error e => (s.run a).2.run (f e) := by
  induction a generalizing s with
  | ret a => rfl
  | raise e => rfl
  | stmt q k ih => exact ih _ _

@[simp] theorem run_translate (s : Solo) (a : Action α) (f : Exn → Exn) :
    s.run (translate f a) = ((s.run a).1.mapError f, (s.run a).2) := by
  rw [translate, run_tryCatch]
  cases (s.run a).1 <;> rfl

theorem run_query {q : Query} {x : q.Resp} (h : q.eval s.ctx s.catalog s.view = x) (f : q.Resp → Action β) :
    s.run (Action.query q >>= f) = s.run (f x) := by
  rw [← h]
  rfl

@[simp] theorem run_appNow (s : Solo) (f : Timestamp → Action β) :
    s.run (Action.appNow >>= f) = s.run (f s.appClock) := rfl

@[simp] theorem run_commit (s : Solo) (f : Unit → Action β) :
    s.run (Action.commit >>= f) = s.commit.run (f ()) := rfl

@[simp] theorem run_rollback (s : Solo) (f : Unit → Action β) :
    s.run (Action.rollback >>= f) = s.abort.run (f ()) := rfl

@[simp] theorem run_publish (s : Solo) (channel : Channel) (event : RealtimeEvent) (f : Unit → Action β) :
    s.run (Action.publish channel event >>= f) = (s.publish channel event).run (f ()) := rfl

@[simp] theorem run_publish_last (s : Solo) (channel : Channel) (event : RealtimeEvent) :
    s.run (Action.publish channel event) = (.ok (), s.publish channel event) := rfl

theorem run_command {c : Command} (hv : c.violation s.ctx s.view = none) (f : Data → Action β) :
    s.run (Action.command c >>= f) = (s.write c).run (f (s.rows c)) := by
  have hx : exec (.command c) s = (.ok (s.rows c), s.write c) := by
    simp only [exec, hv]
  simp only [Action.command, Prog.call, Prog.stmt_bind, run, Prog.run, hx]
  rfl

theorem run_command_fails {c : Command} {err : DbError} (hv : c.violation s.ctx s.view = some err)
    (f : Data → Action β) : s.run (Action.command c >>= f) = (.error (.db err), s.abort) := by
  have hx : exec (.command c) s = (.error err, s.abort) := by
    simp only [exec, hv]
  simp only [Action.command, Prog.call, Prog.stmt_bind, run, Prog.run, hx]
  rfl

end Solo

/-- The state of the only client of a database. -/
def Sys.solo (σ : Sys 1) : Solo where
  catalog := σ.catalog
  data := σ.data
  writes := σ.writes 0
  clock := σ.clock
  appClock := σ.appClock
  nextUuid := σ.nextUuid
  sent := σ.history.filterMap fun e =>
    match e.stmt with
    | .publish channel event => some (channel, event)
    | _ => none

/-- No transaction is older than the clock. -/
def Sys.Current (σ : Sys 1) : Prop := σ.now 0 = σ.clock

theorem Sys.Current.ctx {σ : Sys 1} (h : σ.Current) : σ.ctx 0 = σ.solo.ctx :=
  congrArg (Ctx.mk · σ.nextUuid) h

theorem Sys.Current.perform {σ : Sys 1} (h : σ.Current) (q : Stmt) :
    (σ.perform 0 q).1 = (Solo.exec q σ.solo).1 ∧ (σ.perform 0 q).2.solo = (Solo.exec q σ.solo).2 ∧
      (σ.perform 0 q).2.Current := by
  have hctx := h.ctx
  have hview : σ.view 0 = σ.solo.view := rfl
  cases q with
  | query q =>
    refine ⟨?_, ?_, ?_⟩
    · simp only [Sys.perform, Sys.answer, Solo.exec, hctx, hview]
      rfl
    · simp [Sys.perform, Sys.answer, Sys.record, Sys.begin_, Sys.solo, Sys.event, Solo.exec]
    · simpa [Sys.Current, Sys.now, Sys.perform, Sys.answer, Sys.record, Sys.begin_] using h
  | command c =>
    have hrows : σ.rows 0 c = σ.solo.rows c := by rw [Sys.rows, hctx, hview, Solo.rows]
    cases hv : c.violation σ.solo.ctx σ.solo.view with
    | some err =>
      refine ⟨?_, ?_, ?_⟩
      · simp only [Sys.perform, Sys.answer, Solo.exec, hctx, hview, hv]
      · simp only [Sys.perform, Sys.answer, Solo.exec, hctx, hview, hv]
        simp [Sys.record, Sys.abort, Sys.solo, Sys.event, Solo.abort]
      · simp only [Sys.perform, Sys.answer, hctx, hview, hv]
        simp [Sys.Current, Sys.now, Sys.record, Sys.abort]
    | none =>
      refine ⟨?_, ?_, ?_⟩
      · simp only [Sys.perform, Sys.answer, Solo.exec, hctx, hview, hv, hrows]
      · simp only [Sys.perform, Sys.answer, Solo.exec, hctx, hview, hv, hrows]
        simp [Sys.record, Sys.write, Sys.begin_, Sys.solo, Sys.event, Solo.write, hrows]
      · simp only [Sys.perform, Sys.answer, hctx, hview, hv]
        simpa [Sys.Current, Sys.now, Sys.record, Sys.write, Sys.begin_] using h
  | commit =>
    refine ⟨rfl, ?_, ?_⟩
    · simp [Sys.perform, Sys.answer, Sys.record, Sys.commit, Sys.solo, Sys.event, Solo.exec, Solo.commit,
        Solo.view, Sys.view]
    · simp [Sys.Current, Sys.now, Sys.perform, Sys.answer, Sys.record, Sys.commit]
  | rollback =>
    refine ⟨rfl, ?_, ?_⟩
    · simp [Sys.perform, Sys.answer, Sys.record, Sys.abort, Sys.solo, Sys.event, Solo.exec, Solo.abort]
    · simp [Sys.Current, Sys.now, Sys.perform, Sys.answer, Sys.record, Sys.abort]
  | appNow =>
    refine ⟨rfl, ?_, h⟩
    simp [Sys.perform, Sys.answer, Sys.record, Sys.solo, Sys.event, Solo.exec]
  | publish channel event =>
    refine ⟨rfl, ?_, h⟩
    simp [Sys.perform, Sys.answer, Sys.record, Sys.solo, Sys.event, Solo.exec, Solo.publish]

theorem Sys.Current.alone {σ : Sys 1} (h : σ.Current) (a : Action α) :
    (σ.alone a).1 = (σ.solo.run a).1 ∧ (σ.alone a).2.solo = (σ.solo.run a).2 := by
  induction a generalizing σ with
  | ret b => exact ⟨rfl, rfl⟩
  | raise e => exact ⟨rfl, rfl⟩
  | stmt q k ih =>
    obtain ⟨hanswer, hsolo, hcurrent⟩ := h.perform q
    have hk := ih (σ.perform 0 q).1 hcurrent
    rw [hsolo, hanswer] at hk
    rw [Sys.alone_stmt, hanswer]
    exact hk

/-- A database at rest when an operation begins. -/
def Moment.solo (w : Moment) (c : Catalog) (d : Data) : Solo where
  catalog := c
  data := d
  clock := w.clock
  appClock := w.appClock
  nextUuid := w.nextUuid

theorem Sys.solo_messagesOn (σ : Sys 1) (channel : Channel) :
    σ.solo.messagesOn channel = QOrder.messagesOn channel σ.history := by
  rw [Solo.messagesOn, Sys.solo, List.filterMap_filterMap, QOrder.messagesOn]
  refine List.filterMap_congr fun e _ => ?_
  cases e.stmt <;> rfl

section Requests

variable (r : Request) (w : Moment) (c : Catalog) (d : Data)

theorem Request.execute_solo : (r.execute w c d).1 = ((w.solo c d).run r.handler).1 ∧
    (r.execute w c d).2.solo = ((w.solo c d).run r.handler).2 :=
  Sys.Current.alone (σ := Sys.start 1 c d w.clock w.appClock w.nextUuid) rfl r.handler

theorem Request.response_solo : r.response w c d = ((w.solo c d).run r.handler).1 :=
  (r.execute_solo w c d).1

theorem Request.effect_solo : r.effect w c d = ((w.solo c d).run r.handler).2.data :=
  congrArg Solo.data (r.execute_solo w c d).2

theorem Request.messages_solo (channel : Channel) :
    r.messages w c d channel = ((w.solo c d).run r.handler).2.messagesOn channel := by
  rw [← (r.execute_solo w c d).2, Sys.solo_messagesOn]
  rfl

end Requests

end QOrder
