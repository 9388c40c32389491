import QOrder.Settlement
import QOrder.Transactions

/-! What becomes of an abandoned session. Nothing of it changes until it is restored, and
after a day nothing ever does. -/

namespace QOrder

open KeyedTable Concurrency

variable {owner : Uuid → Uuid} {r : Request} {D D₀ D' : Deployment owner} {p : Clients 1}
  {hb post : List (Event 1)} {e : Event 1} {h : Holding} {i i' : OrderItem} {s : TableSession}
  {d d' : Data} {now now' at_ : Timestamp}

/-- The application reads the clock of the database, timeouts are at least an hour, and
sessions are abandoned by the sweep. -/
structure Regular (r : Request) (p : Clients 1) : Prop where
  clock : ∀ e ∈ p.state.history, e.appClock = e.clock
  timeout : ∀ e ∈ p.state.history, ∀ rs ∈ e.catalog.settings, 1 ≤ rs.sessionTimeoutHours
  swept : ∀ k, r ≠ .abandonSession k

def Request.isAbandon : Request → Bool
  | .abandonSession _ => true
  | _ => false

/-- The operation is a restore of the session that succeeds. -/
def Restores (sessionId : Uuid) (r : Request) (p : Clients 1) : Prop :=
  ∃ user a, r = .restoreSession user sessionId ∧ (p.threads 0).answer = some (.ok a)

theorem TableSession.Columns.opened (hc : s.Columns) (ho : s.status = .opened) :
    s.closedAt = none ∧ s.abandonedAt = none ∧ s.totalAmount = none := by
  rw [TableSession.Columns, ho] at hc
  exact hc

namespace Data

/-- Items are served before the last activity of their session, and a session is
abandoned more than an hour after it. -/
structure Rests (d : Data) (now : Timestamp) (s : TableSession) : Prop where
  activity : s.lastActivityAt ≤ now
  served : ∀ i ∈ d.itemsOf s.id, ∀ at_, i.servedAt = some at_ → at_ ≤ s.lastActivityAt
  abandoned : ∀ at_, s.abandonedAt = some at_ → at_ ≤ now ∧ s.lastActivityAt + hours 1 < at_ ∧
    ∀ i ∈ d.itemsOf s.id, i.isUnserved = false

def Rested (d : Data) (now : Timestamp) : Prop := ∀ s ∈ d.sessions, d.Rests now s

/-- The session, its items, its orders and its calls are what they were. -/
structure Frozen (d d' : Data) (s : TableSession) : Prop where
  session : lookup s.id d'.sessions = some s
  items : d'.itemsOf s.id = d.itemsOf s.id
  orders : ∀ o ∈ d'.orders, o.tableSessionId = s.id → o ∈ d.orders
  calls : ∀ c' ∈ d'.calls, c'.tableSessionId = s.id →
    ∃ c ∈ d.calls, c.id = c'.id ∧ c.tableSessionId = s.id

theorem Rests.mono (hs : d.Rests now s) (hle : now ≤ now') : d.Rests now' s where
  activity := hs.activity.trans hle
  served := hs.served
  abandoned at_ ha := ⟨(hs.abandoned at_ ha).1.trans hle, (hs.abandoned at_ ha).2⟩

theorem Rested.mono (hd : d.Rested now) (hle : now ≤ now') : d.Rested now' :=
  fun s hs => (hd s hs).mono hle

theorem Frozen.refl (hs : lookup s.id d.sessions = some s) : d.Frozen d s where
  session := hs
  items := rfl
  orders _ ho _ := ho
  calls c hc hk := ⟨c, hc, rfl, hk⟩

theorem Frozen.trans {d'' : Data} (h : d.Frozen d' s) (h' : d'.Frozen d'' s) : d.Frozen d'' s where
  session := h'.session
  items := h'.items.trans h.items
  orders o ho hk := h.orders o (h'.orders o ho hk) hk
  calls c hc hk := by
    obtain ⟨c', hc', hid', hk'⟩ := h'.calls c hc hk
    obtain ⟨c₀, hc₀, hid₀, hk₀⟩ := h.calls c' hc' hk'
    exact ⟨c₀, hc₀, hid₀.trans hid', hk₀⟩

theorem Rests.touched (hle : at_ ≤ now)
    (hserved : ∀ i ∈ d.itemsOf s.id, ∀ servedAt, i.servedAt = some servedAt → servedAt ≤ at_)
    (hn : ∀ at_, s.abandonedAt = some at_ → False) : d.Rests now (s.touch at_) :=
  ⟨hle, hserved, fun _ ha => (hn _ ha).elim⟩

theorem itemsOf_new (hd : d.Ok owner) {k : Uuid} (hn : lookup k d.sessions = none) :
    d.itemsOf k = [] := by
  rw [itemsOf, List.filter_eq_nil_iff]
  intro i _ hin
  obtain ⟨o, ho, rfl⟩ := (inSession_iff hd).mp hin
  have hs := hd.orderSession o (mem_of_lookup ho)
  rw [hn] at hs
  cases hs

/-- The undo window of an item ends before its session can be abandoned. -/
theorem undo_window {now servedAt active at_ : Int} (hu : now - servedAt ≤ seconds 120)
    (hs : servedAt ≤ active) (ha : active + hours 1 < at_) : now < at_ := by
  unfold seconds at hu
  unfold hours at ha
  omega

/-- No item of a session that rests can be moved. -/
theorem Rests.not_moved (hs : d.Rests now s) (ha : s.abandonedAt = some at_)
    (hi : i ∈ d.itemsOf s.id) (hm : i.Move now i') : False := by
  obtain ⟨hle, hlt, hall⟩ := hs.abandoned at_ ha
  rcases hm.served_or_unserved with hu | ⟨-, -, hu⟩
  · rw [hall i hi] at hu
    cases hu
  · obtain ⟨servedAt, hsv, hw⟩ := (Option.any_eq_true _ _).mp hu
    have hserved := hs.served i hi servedAt hsv
    exact absurd hle (not_le.mpr (undo_window (of_decide_eq_true hw) hserved hlt))

end Data

section Clock

variable {n : Nat} {req : Fin n → Request} {d₀ : Data} {σ σ' : Sys n} {t : Fin n} {q : Stmt}
  {res : Except DbError q.Resp}

theorem Exec.now_le (hi : Inv owner req d₀ σ) (hx : Exec t q σ res σ') :
    σ'.clock = σ.clock ∧ σ.now t ≤ σ'.now t ∧ (q = .commit → σ'.now t = σ.clock) := by
  have hle := hi.now_le t
  have ended {τ : Sys n} (hb : τ.began t = none) (hc : τ.clock = σ.clock) :
      τ.clock = σ.clock ∧ σ.now t ≤ τ.now t ∧ (q = .commit → τ.now t = σ.clock) := by
    have hn : τ.now t = σ.clock := by rw [Sys.now, hb, Option.getD_none, hc]
    exact ⟨hc, hn ▸ hle, fun _ => hn⟩
  have ran {τ : Sys n} (hn : τ.now t = σ.now t) (hc : τ.clock = σ.clock) (hq : q ≠ .commit) :
      τ.clock = σ.clock ∧ σ.now t ≤ τ.now t ∧ (q = .commit → τ.now t = σ.clock) :=
    ⟨hc, le_of_eq hn.symm, fun h => absurd h hq⟩
  cases hx with
  | kill hq => exact ended (by simp [Sys.kill, Sys.record, Sys.abort]) rfl
  | perform hb =>
    cases q with
    | query q => exact ran (by simp [Sys.perform, Sys.answer, Sys.record, Sys.begin_, Sys.now]) rfl (by simp)
    | command c =>
      simp only [Sys.perform, Sys.answer]
      cases c.violation (σ.ctx t) (σ.view t) with
      | some e => exact ended (by simp [Sys.record, Sys.abort]) rfl
      | none => exact ran (by simp [Sys.record, Sys.write, Sys.begin_, Sys.now]) rfl (by simp)
    | commit => exact ended (by simp [Sys.perform, Sys.answer, Sys.record, Sys.commit]) rfl
    | rollback => exact ended (by simp [Sys.perform, Sys.answer, Sys.record, Sys.abort]) rfl
    | appNow => exact ran rfl rfl (by simp)
    | publish channel event => exact ran rfl rfl (by simp)

end Clock

section Commit

theorem stale_hour {active now now' : Int} {rs : RestaurantSettings}
    (hlt : active < rs.staleBefore now) (hrs : 1 ≤ rs.sessionTimeoutHours) (hle : now ≤ now') :
    active + hours 1 < now' := by
  have hlt : active < now - hours rs.sessionTimeoutHours := hlt
  unfold hours at hlt ⊢
  omega

@[simp] theorem OrderItem.cancelIfUnserved_servedAt (reason : String) :
    (i.cancelIfUnserved now reason).servedAt = i.servedAt := by
  unfold OrderItem.cancelIfUnserved
  split <;> rfl

theorem Leave.row_lastActivityAt (kind : Leave) (stage : Stage) :
    (kind.row now d s stage).lastActivityAt = s.lastActivityAt := by
  cases kind <;> cases stage <;> rfl

/-- The sweep leaves the last activity of every session alone. -/
theorem swept_activity (hr : D.Reaches (fun _ => .runSweep) p) (hh : p.state.history = hb ++ e :: post)
    {x : Event 1} (hx : x ∈ hb) {k : Uuid} {s₀ : TableSession} (hl : lookup k x.before.sessions = some s₀)
    (hs : lookup k e.before.sessions = some s) : s.lastActivityAt = s₀.lastActivityAt := by
  let Keeps (d d' : Data) : Prop := ∀ k s, lookup k d.sessions = some s →
    ∃ s', lookup k d'.sessions = some s' ∧ s'.lastActivityAt = s.lastActivityAt
  have keeps (y : Event 1) (hy : y ∈ p.state.history) : Keeps y.before y.after := by
    intro k s hs
    obtain ⟨hb', -, hen⟩ := hr.entry hy
    rcases hen.unchanged_or_committed with ha | ⟨h, hc⟩
    · exact ⟨s, ha ▸ hs, rfl⟩
    · obtain ⟨s', hs', hst⟩ := hc.session hs
      refine ⟨s', hs', ?_⟩
      have hj := hc.justified
      cases hst with
      | kept hk => rfl
      | left items kind => exact kind.row_lastActivityAt .dismissed
      | _ => exact hj.elim
  obtain ⟨hb₁, hb₂, rfl⟩ := List.append_of_mem hx
  have hf := hr.inv.follows
  rw [hh, List.append_assoc, List.cons_append] at hf
  have hrel : Keeps x.after e.before := by
    refine hf.split.2.split.1.rel (fun _ _ s hs => ⟨s, hs, rfl⟩) ?_ fun y hy => keeps y ?_
    · intro d₁ d₂ d₃ h₁ h₂ k s hs
      obtain ⟨s', hs', he⟩ := h₁ k s hs
      obtain ⟨s'', hs'', he'⟩ := h₂ k s' hs'
      exact ⟨s'', hs'', he'.trans he⟩
    · rw [hh]
      simp [hy]
  obtain ⟨s₁, hs₁, h₁⟩ := keeps x (by rw [hh]; simp) k s₀ hl
  obtain ⟨s₂, hs₂, h₂⟩ := hrel k s₁ hs₁
  rw [hs] at hs₂
  cases hs₂
  exact h₂.trans h₁

/-- An item that the orders of a request find served was served before the request. -/
theorem ordered_served {qrToken : String} {body : CreateOrderRequest}
    (hr : D.Reaches (fun _ => .createOrder qrToken body) p) (h₀ : D.data.Rested D.clock)
    (he : e ∈ p.state.history) (hi : i ∈ e.before.items) (ha : i.servedAt = some at_) :
    at_ ≤ D.clock := by
  have hall := hr.preserved
    (P := fun d => ∀ i ∈ d.items, ∀ at_, i.servedAt = some at_ → at_ ≤ D.clock) ?_ ?_
  · exact hall.1 e he i hi at_ ha
  · intro i hi at_ ha
    obtain ⟨s, hs, hin⟩ := D.ok.session_of_item hi
    have hrs := h₀ s hs
    exact (hrs.served i (Data.mem_itemsOf.mpr ⟨hi, hin⟩) at_ ha).trans hrs.activity
  · intro hb e post h hh hc hp i hi at_ ha
    rw [hc.after] at hi
    cases hl : lookup i.id e.before.items with
    | none =>
      obtain ⟨o, items, hp, hm⟩ := Holding.item_new hc.ok hc.valid hi hl hc.complete
      have hnew := hp.newOrder hc.valid
      have hserved := (hnew.columns i hm).servedAt
      rw [ha, hnew.pending i hm] at hserved
      simp at hserved
    | some i₀ =>
      obtain ⟨i', hi', hst⟩ := hc.item hl
      rw [hc.after, (h.commit_ok hc.ok hc.valid hc.complete).mem_items.mp hi] at hi'
      cases hi'
      have hj := hc.justified
      cases hst with
      | kept => exact hp i (mem_of_lookup hl) at_ ha
      | moved => exact hj.elim
      | cancelled => exact hj.1.elim

theorem OrderItem.Move.servedAt (hm : i.Move now i') (ha : i'.servedAt = some at_) :
    at_ = now ∨ i.servedAt = some at_ := by
  cases hm with
  | cook h => exact .inr ha
  | ready h => exact .inr ha
  | serve actorUserId h => exact .inl (Option.some.inj ha).symm
  | undo h hu => cases ha
  | cancel cancelledBy cancelReason h => exact .inr ha

theorem Committed.rested_left {items : List OrderItem} {kind : Leave}
    (hc : Committed owner (fun _ => r) hb e (.leaving s items kind .dismissed))
    (hr : D.Reaches (fun _ => r) p) (hh : p.state.history = hb ++ e :: post) (hreg : Regular r p)
    (hs : e.before.Rests e.now s) (hle : e.now ≤ e.clock) (hpast : ∀ x ∈ hb, x.now ≤ e.now) :
    e.after.Rests e.clock (kind.row e.now e.before s .dismissed) := by
  have hj := hc.justified.1
  have hall := hc.items_left hr hh
  have hitems := leaving_itemsOf_all hc.ok hc.valid hall
  rw [← hc.after] at hitems
  have hactive : (kind.row e.now e.before s .dismissed).lastActivityAt = s.lastActivityAt :=
    kind.row_lastActivityAt .dismissed
  refine ⟨?_, fun i hi at_ ha => ?_, fun at_ ha => ?_⟩
  · rw [hactive]
    exact hs.activity.trans hle
  · rw [Leave.row_id, hitems] at hi
    obtain ⟨j, hj, rfl⟩ := List.mem_map.mp hi
    rw [hactive]
    rw [OrderItem.cancelIfUnserved_servedAt] at ha
    exact hs.served j (hall ▸ hj) at_ ha
  · rw [Leave.row_id, hactive]
    have hnone (i : OrderItem) (hi : i ∈ e.after.itemsOf s.id) : i.isUnserved = false := by
      rw [hc.after] at hi
      exact leaving_no_unserved hc.ok hc.valid hall hi
    cases kind with
    | close =>
      obtain ⟨hat, hlt, -⟩ := hs.abandoned at_ ha
      exact ⟨hat.trans hle, hlt, hnone⟩
    | abandon =>
      obtain rfl : e.now = at_ := Option.some.inj ha
      refine ⟨hle, ?_, hnone⟩
      cases r with
      | runSweep =>
        obtain ⟨-, x, hx, -, s₀, hs₀, rs, hrs, -, hlt⟩ := hj
        rw [own_alone] at hx
        have hsame := swept_activity hr hh hx hs₀ (hc.ok.mem_sessions.mp (mem_of_lookup hc.valid.1))
        rw [hsame]
        have hxp : x ∈ p.state.history := by rw [hh]; simp [hx]
        exact stale_hour hlt (hreg.timeout x hxp rs hrs) (hpast x hx)
      | abandonSession k => exact absurd rfl (hreg.swept k)
      | checkoutSession user k => cases hj.2.1
      | restoreSession user k => cases hj.2.1
      | _ => exact hj.elim

theorem Committed.rested (hc : Committed owner (fun _ => r) hb e h) (hr : D.Reaches (fun _ => r) p)
    (hh : p.state.history = hb ++ e :: post) (hreg : Regular r p) (h₀ : D.data.Rested D.clock)
    (hrest : e.before.Rested e.now) (hpast : ∀ x ∈ hb, x.now ≤ e.now)
    (hclocks : ∀ x ∈ hb, D.clock ≤ x.clock) : e.after.Rested e.clock := by
  have hentry := hr.inv.logged hb e post hh
  have hle : e.now ≤ e.clock := hentry.began
  have hlogged (x : Event 1) (hx : x ∈ own e.client hb) : x ∈ hb ∧ x ∈ p.state.history := by
    rw [own_alone] at hx
    exact ⟨hx, by rw [hh]; simp [hx]⟩
  have unmoved {s : TableSession} (ho : (h.writes e.now e.before).orders = [])
      (hi : (h.writes e.now e.before).items = []) : e.after.itemsOf s.id = e.before.itemsOf s.id := by
    rw [hc.after]
    exact Data.itemsOf_of_nil ho hi
  refine hc.sessions ?_ fun s hs s' hst => ?_
  · rintro s rfl
    have hnone : e.after.itemsOf s.id = [] := by
      rw [unmoved rfl rfl]
      exact Data.itemsOf_new hc.ok hc.valid.new
    have hcol := hc.valid.columns.opened hc.valid.opened
    exact ⟨hc.valid.activity ▸ hle, by simp [hnone], by simp [hcol.2.1]⟩
  have hrs := hrest s hs
  have hls := hc.ok.mem_sessions.mp hs
  have hcol := hc.ok.sessionColumns s hs
  cases hst with
  | kept hk =>
    have hm := hrs.mono hle
    by_cases hjoin : h.Joins s.id
    · obtain ⟨o, items, -, hp, -⟩ := hjoin.places
      refine ⟨hm.activity, fun j hj served ha => ?_, fun at_ ha => ?_⟩
      · rw [hc.after] at hj
        rcases Holding.itemsOf_placed hp hc.ok hc.valid hj with hj | hj
        · exact hm.served j hj served ha
        · rw [hj] at ha
          cases ha
      · rw [(hcol.opened (hc.joined_open hr hh hs hjoin)).2.1] at ha
        cases ha
    · have hitems := Holding.itemsOf_commit hc.ok hc.valid hc.complete hk hjoin
      rw [← hc.after] at hitems
      exact ⟨hm.activity, by rw [hitems]; exact hm.served, by rw [hitems]; exact hm.abandoned⟩
  | reopened =>
    refine ⟨hle, ?_, fun at_ ha => by cases ha⟩
    rw [TableSession.reopen_id, unmoved rfl rfl]
    exact fun i hi at_ ha => (hrs.served i hi at_ ha).trans hrs.activity
  | left items kind => exact hc.rested_left hr hh hreg hrs hle hpast
  | moved i i' =>
    have hin := Data.mem_itemsOf.mpr ⟨mem_of_lookup hc.valid.1, hc.valid.2.2.2⟩
    have hm := hc.valid.2.1
    have hitems := Holding.itemsOf_moved hc.ok hc.valid
    rw [← hc.after] at hitems
    refine Data.Rests.touched hle (fun j hj at_ ha => ?_) fun at_ ha => hrs.not_moved ha hin hm
    rw [hitems] at hj
    obtain ⟨j₀, hj₀, rfl⟩ := List.mem_map.mp hj
    split at ha
    · rcases hm.servedAt ha with rfl | ha
      · exact le_rfl
      · exact (hrs.served i hin at_ ha).trans hrs.activity
    · exact (hrs.served j₀ hj₀ at_ ha).trans hrs.activity
  | ordered o items at_ =>
    have ho := hc.ordered_open hr hh
    have hj := hc.justified
    cases r with
    | createOrder qrToken body =>
      obtain ⟨-, -, x, hx, -, rfl⟩ := hj
      obtain ⟨hxb, hxh⟩ := hlogged x hx
      rw [hreg.clock x hxh]
      refine Data.Rests.touched (hentry.past x hxb) (fun j hj served ha => ?_) fun at_ ha => ?_
      · rw [hc.after] at hj
        rcases Holding.itemsOf_placed (.ordered s x.appClock) hc.ok hc.valid hj with hj | hj
        · have he : e ∈ p.state.history := by rw [hh]; simp
          have hserved := ordered_served hr h₀ he (Data.mem_itemsOf.mp hj).1 ha
          exact hserved.trans (hclocks x hxb)
        · rw [hj] at ha
          cases ha
      · rw [(hcol.opened ho).2.1] at ha
        cases ha
    | _ => cases hj
  | called c =>
    have ho := hc.called_open hr hh
    refine Data.Rests.touched hle (fun j hj at_ ha => ?_) fun at_ ha => ?_
    · rw [unmoved rfl rfl] at hj
      exact (hrs.served j hj at_ ha).trans hrs.activity
    · rw [(hcol.opened ho).2.1] at ha
      cases ha

end Commit

section Run

/-- What an operation keeps of its start, and of the clocks. -/
structure Timed (D : Deployment owner) (p : Clients 1) : Prop where
  rested : p.state.data.Rested (p.state.now 0)
  past : ∀ e ∈ p.state.history, e.now ≤ p.state.now 0
  started : D.clock ≤ p.state.clock
  clocks : ∀ e ∈ p.state.history, D.clock ≤ e.clock

theorem Regular.left {p' : Clients 1} (hreg : Regular r p') (hh : p.state.history <+: p'.state.history) :
    Regular r p where
  clock e he := hreg.clock e (hh.subset he)
  timeout e he := hreg.timeout e (hh.subset he)
  swept := hreg.swept

theorem Deployment.Reaches.timed (hr : D.Reaches (fun _ => r) p) (hreg : Regular r p)
    (h₀ : D.data.Rested D.clock) : Timed D p := by
  induction hr with
  | refl => exact ⟨h₀, by simp [Deployment.start, Deployment.initial, Sys.start], le_rfl,
      by simp [Deployment.start, Deployment.initial, Sys.start]⟩
  | @tail p₁ p₂ hr₁ hs ih =>
    have hr₂ : D.Reaches (fun _ => r) p₂ := Relation.ReflTransGen.tail hr₁ hs
    cases hs with
    | @env σ he =>
      have hi : Timed D p₁ := ih (hreg.left (by cases he <;> exact List.prefix_rfl))
      cases he with
      | tick clock appClock hle =>
        have hnow : p₁.state.now 0 ≤ Sys.now { p₁.state with clock, appClock } 0 := by
          simp only [Sys.now]
          cases p₁.state.began 0 with
          | none => exact hle
          | some now => exact le_rfl
        exact ⟨hi.rested.mono hnow, fun e he => (hi.past e he).trans hnow, hi.started.trans hle,
          hi.clocks⟩
      | edit catalog ho => exact ⟨hi.rested, hi.past, hi.started, hi.clocks⟩
    | @exec t q k res σ hp hx =>
      obtain rfl : t = 0 := Subsingleton.elim _ _
      have hh : σ.history = p₁.state.history ++ [p₁.state.event 0 q res σ.data] := by
        cases hx <;> rfl
      have hi : Timed D p₁ := ih (hreg.left (hh ▸ List.prefix_append ..))
      have hr₁ : D.Reaches (fun _ => r) p₁ := hr₁
      obtain ⟨hclock, hle, hcommit⟩ := Exec.now_le hr₁.inv hx
      refine ⟨?_, fun e he => ?_, hclock ▸ hi.started, fun e he => ?_⟩
      · rcases (hr₂.inv.logged _ _ [] hh).unchanged_or_committed with hu | ⟨h, hc⟩
        · rw [show σ.data = p₁.state.data from hu]
          exact hi.rested.mono hle
        · have hq : q = .commit := by
            have hq := hc.commit
            rw [isCommit_event] at hq
            cases q <;> first | rfl | cases hq
          have hrest := hc.rested hr₂ hh hreg h₀ hi.rested hi.past hi.clocks
          show σ.data.Rested (σ.now 0)
          rw [hcommit hq]
          exact hrest
      · rw [hh] at he
        rcases List.mem_append.mp he with he | he
        · exact (hi.past e he).trans hle
        · rw [List.mem_singleton.mp he]
          exact hle
      · rw [hh] at he
        rcases List.mem_append.mp he with he | he
        · exact hi.clocks e he
        · rw [List.mem_singleton.mp he]
          exact hi.started

end Run

section Freeze

/-- A commit that does not restore the session leaves it as it is. -/
theorem Committed.frozen (hc : Committed owner (fun _ => r) hb e h) (hr : D.Reaches (fun _ => r) p)
    (hh : p.state.history = hb ++ e :: post) (hs : lookup s.id e.before.sessions = some s)
    (hrest : e.before.Rests e.now s) (ha : s.abandonedAt = some at_) (hopen : h ≠ .reopening s)
    (hclose : ∀ items, h ≠ .leaving s items .close .dismissed) : e.before.Frozen e.after s := by
  have hcol := hc.ok.sessionColumns s (mem_of_lookup hs)
  have hn : s.status ≠ .opened := by
    intro ho
    rw [(hcol.opened ho).2.1] at ha
    cases ha
  have hkept : lookup s.id (h.writes e.now e.before).sessions = none := by
    obtain ⟨s', hs', hst⟩ := hc.session hs
    cases hst with
    | kept hk => exact hk
    | reopened => exact absurd rfl hopen
    | left items kind =>
      cases kind with
      | close => exact absurd rfl (hclose items)
      | abandon =>
        rcases hc.valid.2.1 with ho | ⟨-, hk⟩
        · exact absurd ho hn
        · cases hk
    | moved i i' =>
      have hin := Data.mem_itemsOf.mpr ⟨mem_of_lookup hc.valid.1, hc.valid.2.2.2⟩
      exact (hrest.not_moved ha hin hc.valid.2.1).elim
    | ordered o items at_ => exact absurd (hc.ordered_open hr hh) hn
    | called c => exact absurd (hc.called_open hr hh) hn
  have hjoin : ¬ h.Joins s.id := fun hj => hn (hc.joined_open hr hh (mem_of_lookup hs) hj)
  have held {w : TableSession} (hw : w ∈ (h.writes e.now e.before).sessions) : w.id ≠ s.id :=
    lookup_eq_none.mp hkept w hw
  refine ⟨?_, ?_, fun o ho hk => ?_, fun c hm hk => ?_⟩
  · rw [hc.after, Data.overlay_sessions, lookup_overlay, hkept, hs]
    rfl
  · rw [hc.after]
    exact Holding.itemsOf_commit hc.ok hc.valid hc.complete hkept hjoin
  · rw [hc.after] at ho
    cases hl : lookup o.id e.before.orders with
    | none =>
      obtain ⟨items, hp⟩ := Holding.order_new hc.ok ho hl
      cases hp with
      | ordering => exact absurd hk hjoin
      | ordered w last =>
        exact absurd (hc.valid.2.2.symm.trans hk) (held (w := w.touch last) (by simp [Holding.writes]))
    | some o₀ =>
      have ho₀ := (Holding.fits hc.ok hc.valid hc.complete).order_kept hl
      rw [(h.commit_ok hc.ok hc.valid hc.complete).mem_orders.mp ho] at ho₀
      cases ho₀
      exact mem_of_lookup hl
  · rw [hc.after] at hm
    cases hl : lookup c.id e.before.calls with
    | none =>
      obtain ⟨w, rfl⟩ := Holding.call_new hc.ok hc.valid hm hl hc.complete
      exact absurd (hc.valid.tableSessionId.symm.trans hk)
        (held (w := w.touch e.now) (by simp [Holding.writes]))
    | some c₀ =>
      obtain ⟨c', hc', hst⟩ := Holding.call_step hc.ok hc.valid hc.complete hl
      rw [(h.commit_ok hc.ok hc.valid hc.complete).mem_calls.mp hm] at hc'
      cases hc'
      refine ⟨c₀, mem_of_lookup hl, key_of_lookup hl, ?_⟩
      cases hst with
      | kept => exact hk
      | acked =>
        obtain ⟨-, at_, by_, rfl⟩ := hc.valid
        exact hk
      | dismissed => exact hk

/-- Only a restore of the session takes it out of its abandonment. -/
theorem Committed.restores (hc : Committed owner (fun _ => r) hb e h) (hn : s.status ≠ .opened)
    (hk : h = .reopening s ∨ ∃ items, h = .leaving s items .close .dismissed) :
    ∃ user, r = .restoreSession user s.id ∧ Restorable s.id hb := by
  have hj := hc.justified
  rw [own_alone] at hj
  rcases hk with rfl | ⟨items, rfl⟩
  · cases r with
    | restoreSession user k =>
      obtain ⟨hres, rfl, -⟩ := hj
      exact ⟨user, rfl, hres⟩
    | _ => exact hj.elim
  · cases r with
    | restoreSession user k =>
      obtain ⟨⟨hres, -, rfl, -⟩, -⟩ := hj
      exact ⟨user, rfl, hres⟩
    | checkoutSession user k => exact absurd hj.1.2.2.2.2 hn
    | runSweep => cases hj.1.1
    | abandonSession k => cases hj.1.2.1
    | _ => exact hj.1.elim

/-- An operation that does not take the session out of its abandonment leaves it as it is. -/
theorem Deployment.Reaches.frozen (hr : D.Reaches (fun _ => r) p) (hreg : Regular r p)
    (h₀ : D.data.Rested D.clock) (hs : lookup s.id D.data.sessions = some s)
    (ha : s.abandonedAt = some at_) (hno : ∀ hb e post h, p.state.history = hb ++ e :: post →
      Committed owner (fun _ => r) hb e h →
      (∃ user, r = .restoreSession user s.id) → Restorable s.id hb → False) :
    D.data.Frozen p.state.data s := by
  have hcol := D.ok.sessionColumns s (mem_of_lookup hs)
  have hn : s.status ≠ .opened := by
    intro ho
    rw [(hcol.opened ho).2.1] at ha
    cases ha
  refine (hr.preserved (P := fun d => D.data.Frozen d s) (.refl hs) ?_).2
  intro hb e post h hh hc hf
  obtain ⟨p₀, q, k, res, σ', hr₀, rfl, -, -, he, -⟩ := hr.replay hh
  have hclient : e.client = 0 := Subsingleton.elim _ _
  have hrest : e.before.Rested e.now := by
    have hrest := (hr₀.timed (hreg.left (hh ▸ List.prefix_append ..)) h₀).rested
    rw [he, hclient]
    exact hrest
  have hkeep (hk : h = .reopening s ∨ ∃ items, h = .leaving s items .close .dismissed) : False := by
    obtain ⟨user, hq, hres⟩ := hc.restores hn hk
    exact hno _ e post h hh hc ⟨user, hq⟩ hres
  exact hf.trans (hc.frozen hr hh hf.session (hrest s (mem_of_lookup hf.session)) ha
    (fun hk => hkeep (.inl hk)) fun items hk => hkeep (.inr ⟨items, hk⟩))

/-- While nothing has been committed, the data are those of the start. -/
theorem before_eq (hr : D.Reaches (fun _ => r) p) (hh : p.state.history = hb ++ e :: post)
    (hc : commitsOf hb = []) {x : Event 1} (hx : x ∈ hb) : x.before = D.data := by
  obtain ⟨hb₁, hb₂, rfl⟩ := List.append_of_mem hx
  have hf := hr.inv.follows
  rw [hh] at hf
  refine hf.split.1.split.1.unchanged fun y hy => ?_
  obtain ⟨hb', -, hen⟩ := hr.entry (e := y) (by rw [hh]; simp [hy])
  refine hen.other ?_
  by_contra hcm
  have hmem : y ∈ commitsOf (hb₁ ++ x :: hb₂) :=
    List.mem_filter.mpr ⟨List.mem_append_left _ hy, by simpa using hcm⟩
  rw [hc] at hmem
  cases hmem

/-- A day after its abandonment a session is not restorable. -/
theorem not_restorable (hr : D.Reaches (fun _ => r) p) (hreg : Regular r p)
    (h₀ : D.data.Rested D.clock) (hs : lookup s.id D.data.sessions = some s)
    (ha : s.abandonedAt = some at_) (hold : hours 24 < D.clock - at_)
    (hh : p.state.history = hb ++ e :: post) (hres : Restorable s.id hb) : False := by
  obtain ⟨hc, x, hx, s₀, a₀, hs₀, -, ha₀, now, ⟨y, hy, -, rfl⟩, hle⟩ := hres
  rw [before_eq hr hh hc hx, hs] at hs₀
  cases hs₀
  rw [ha] at ha₀
  cases ha₀
  have hyp : y ∈ p.state.history := by rw [hh]; simp [hy]
  have hclock := (hr.timed hreg h₀).clocks y hyp
  rw [hreg.clock y hyp] at hle
  exact absurd (hold.trans_le (Int.sub_le_sub_right hclock at_)) (not_lt.mpr hle)

end Freeze

section Serial

theorem Serially.rested (h₀ : D₀.data = {}) (hr : Serially Regular D₀ D) : D.data.Rested D.clock := by
  induction hr with
  | refl => simp [h₀, Data.Rested]
  | tail _ hop ih =>
    cases hop with
    | op r hr hend hreg => exact (hr.timed hreg ih).rested.mono (hr.inv.now_le 0)

/-- What each operation leaves as it is stays through all of them. -/
theorem Serially.frozen {C : Request → Clients 1 → Prop} (hC : ∀ r p, C r p → Regular r p)
    (hr : Serially C D D') (hrest : D.data.Rested D.clock) (hs : lookup s.id D.data.sessions = some s)
    (hop : ∀ (D₁ : Deployment owner) (r : Request) (p : Clients 1), D₁.Reaches (fun _ => r) p →
      C r p → (p.threads 0).answer.isSome → D₁.data.Rested D₁.clock → D.clock ≤ D₁.clock →
      lookup s.id D₁.data.sessions = some s → D₁.data.Frozen p.state.data s) :
    D.data.Frozen D'.data s := by
  have hall : D.data.Frozen D'.data s ∧ D'.data.Rested D'.clock ∧ D.clock ≤ D'.clock := by
    induction hr with
    | refl => exact ⟨.refl hs, hrest, le_rfl⟩
    | tail _ hstep ih =>
      obtain ⟨hf, hrest, hle⟩ := ih
      cases hstep with
      | op r hr hend hc =>
        have ht := hr.timed (hC _ _ hc) hrest
        exact ⟨hf.trans (hop _ r _ hr hc hend hrest hle hf.session),
          ht.rested.mono (hr.inv.now_le 0), hle.trans ht.started⟩
  exact hall.1

/-- An abandoned session stays as it is until it is restored, and for good after a day. -/
theorem abandoned_frozen (h₀ : D₀.data = {}) (hr : Serially Regular D₀ D) (hs : s ∈ D.data.sessions) :
    (s.status = .abandoned → ∀ D', Serially (fun r p => Regular r p ∧ ¬ Restores s.id r p) D D' →
      D.data.Frozen D'.data s) ∧
    (∀ at_, s.abandonedAt = some at_ → hours 24 < D.clock - at_ → ∀ D', Serially Regular D D' →
      D.data.Frozen D'.data s) := by
  have hrest := hr.rested h₀
  have hl := D.ok.mem_sessions.mp hs
  constructor
  · intro hst D' hr'
    have hcol := D.ok.sessionColumns s hs
    rw [TableSession.Columns, hst] at hcol
    obtain ⟨at_, ha⟩ := Option.isSome_iff_exists.mp hcol.1
    refine Serially.frozen (fun _ _ hc => hc.1) hr' hrest hl fun D₁ r p hr hc hend hrest _ hl => ?_
    refine hr.frozen hc.1 hrest hl ha fun hb e post h hh hcm hq _ => ?_
    obtain ⟨user, rfl⟩ := hq
    obtain ⟨res, hres⟩ := Option.isSome_iff_exists.mp hend
    cases res with
    | ok a => exact hc.2 ⟨user, a, rfl, hres⟩
    | error x =>
      have hf : Fails (.restoreSession user s.id) x (own 0 p.state.history) := (hr.kept.ended hres).2
      have hnone := (hf.restore user s.id rfl).1
      have hmem : e ∈ commitsOf (own 0 p.state.history) := by
        rw [own_alone]
        exact List.mem_filter.mpr ⟨by rw [hh]; simp, hcm.commit⟩
      rw [hnone] at hmem
      cases hmem
  · intro at_ ha hold D' hr'
    refine Serially.frozen (fun _ _ hc => hc) hr' hrest hl fun D₁ r p hr hc _ hrest hle hl => ?_
    refine hr.frozen hc hrest hl ha fun hb e post h hh _ _ hres => ?_
    exact not_restorable hr hc hrest hl ha (hold.trans_le (Int.sub_le_sub_right hle at_)) hh hres

def regular (r : Request) (p : Clients 1) : Bool :=
  p.state.history.all (fun e => e.appClock = e.clock ∧
    ∀ rs ∈ e.catalog.settings, 1 ≤ rs.sessionTimeoutHours) && ! r.isAbandon

theorem regular_regular (h : regular r p = true) : Regular r p := by
  obtain ⟨hall, hr⟩ := Bool.and_eq_true_iff.mp h
  have hev (e : Event 1) (he : e ∈ p.state.history) :=
    of_decide_eq_true (List.all_eq_true.mp hall e he)
  refine ⟨fun e he => (hev e he).1, fun e he => (hev e he).2, ?_⟩
  rintro k rfl
  cases hr

/-- The table is left after an order, and swept after the timeout. -/
def cafeLeft : List (Timestamp × Request) := [(0, cafeOrder), (hours 7, .runSweep)]

/-- The kitchen is late, and so is the waiter who wants the table back. -/
def cafeLate : List (Timestamp × Request) :=
  [(hours 8, .setItemStatus cafeStaff 12 .cooking), (hours 32, .restoreSession cafeStaff 10)]

theorem abandoned_frozen_cafe : ∃ D D', Serially Regular cafe D ∧ Serially Regular D D' ∧
    D'.clock = hours 32 ∧ ∃ s ∈ D.data.sessions, s.status = .abandoned ∧ D.data.Frozen D'.data s := by
  obtain ⟨D, σ, hr, hd, ht⟩ := exists_serially cafe (fun r p => regular r p)
    (fun _ _ => regular_regular) cafeLeft
    (fun σ => (serveAll (fun r p => regular r p && (p.threads 0).answer.any (!·.isOk)) cafeLate σ).any
      (fun σ' => σ'.clock = hours 32) && σ.data.sessions.any fun s => s.status = .abandoned)
    (by decide)
  obtain ⟨hlate, hab⟩ := Bool.and_eq_true_iff.mp ht
  obtain ⟨σ', hσ', hclock⟩ := (Option.any_eq_true _ _).mp hlate
  rw [← hd.data] at hab
  obtain ⟨s, hs, hst⟩ := List.any_eq_true.mp hab
  have hst := of_decide_eq_true hst
  have hcheck (r : Request) (p : Clients 1) (h : (regular r p && (p.threads 0).answer.any (!·.isOk)) = true) :
      Regular r p ∧ ¬ Restores s.id r p := by
    obtain ⟨hreg, hans⟩ := Bool.and_eq_true_iff.mp h
    refine ⟨regular_regular hreg, ?_⟩
    rintro ⟨user, a, rfl, ha⟩
    rw [ha] at hans
    cases hans
  obtain ⟨D', hr', hd'⟩ := serially_serveAll hcheck cafeLate hd hσ'
  refine ⟨D, D', hr, Serially.weaken hr' fun _ _ hc => hc.1, ?_, s, hs, hst, (abandoned_frozen rfl hr hs).1 hst D' hr'⟩
  exact hd'.clock.trans (of_decide_eq_true hclock)

end Serial

end QOrder
