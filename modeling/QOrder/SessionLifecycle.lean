import QOrder.Steps

/-! The life of a session: which changes of its status are committed, who claims
them, and which columns go with which status. -/

namespace QOrder

open KeyedTable Concurrency

variable {n : Nat} {owner : Uuid → Uuid} {req : Fin n → Request}

inductive SessionStatus.Becomes : SessionStatus → SessionStatus → Prop
  | close : Becomes .opened .closed
  | abandon : Becomes .opened .abandoned
  | reopen : Becomes .abandoned .opened
  | settle : Becomes .abandoned .closed

/-- What stays of a closed session. -/
structure TableSession.SettledAs (s s' : TableSession) : Prop where
  status : s'.status = .closed
  closedAt : s'.closedAt = s.closedAt
  totalAmount : s'.totalAmount = s.totalAmount

/-- The changes of status a client claims by its answer; the sweep answers nothing and
claims by announcing. -/
def claimed (r : Request) (res : Except Exn Response) (l : List (Event n)) :
    List (Uuid × SessionStatus × SessionStatus) :=
  match r, res with
  | .checkoutSession _ sessionId, .ok (.checkout _) => [(sessionId, .opened, .closed)]
  | .restoreSession _ sessionId, .ok (.restore result) =>
    match result.action with
    | .restored => [(sessionId, .abandoned, .opened)]
    | .checkedOut => [(sessionId, .abandoned, .closed)]
  | .runSweep, _ | .abandonSession _, _ => announced l
  | _, _ => []

/-- The requests that contend for a session's status. -/
def Request.contends : Request → Bool
  | .checkoutSession _ _ | .restoreSession _ _ | .runSweep | .abandonSession _ => true
  | _ => false

section Step

variable {now : Timestamp} {d : Data} {s s' : TableSession} {h : Holding}

theorem Holding.SessionStep.status (hst : h.SessionStep now d s s') (hv : h.Valid owner now d) :
    s'.status = s.status ∨ s.status.Becomes s'.status := by
  cases hst with
  | reopened =>
    rw [hv.2.1]
    exact .inr .reopen
  | left items kind =>
    right
    rw [Leave.row_status]
    rcases hv.2.1 with ho | ⟨ha, rfl⟩
    · rw [ho]
      cases kind
      · exact .close
      · exact .abandon
    · rw [ha]
      exact .settle
  | _ => exact .inl rfl

theorem Holding.SessionStep.closed (hst : h.SessionStep now d s s') (hv : h.Valid owner now d)
    (hs : s.status = .closed) : s.SettledAs s' := by
  cases hst with
  | reopened => exact absurd hv.2.1 (by simp [hs])
  | left items kind => exact absurd hv.2.1 (by simp [hs])
  | _ => exact ⟨hs, rfl, rfl⟩

end Step

section Events

variable {hb : List (Event n)} {e : Event n} {h : Holding}

theorem statusChanges_of_kept (h : ∀ s ∈ e.before.sessions, ∃ s', lookup s.id e.after.sessions = some s' ∧
      s'.status = s.status) : e.statusChanges = [] := by
  rw [Event.statusChanges, List.filterMap_eq_nil_iff]
  intro s hs
  obtain ⟨s', hs', ht⟩ := h s hs
  simp [hs', ht]

theorem Entry.statusChanges_unchanged (he : Entry owner req hb e) (ha : e.after = e.before) :
    e.statusChanges = [] := by
  refine statusChanges_of_kept fun s hs => ⟨s, ?_, rfl⟩
  rw [ha]
  exact he.ok.mem_sessions.mp hs

/-- Only a contender changes the status of a session. -/
theorem Committed.statusChanges (hc : Committed owner req hb e h)
    (hr : (req e.client).contends = false) : e.statusChanges = [] := by
  refine statusChanges_of_kept fun s hs => ?_
  obtain ⟨s', hs', hst⟩ := hc.session (hc.ok.mem_sessions.mp hs)
  refine ⟨s', hs', ?_⟩
  have hj := hc.justified
  cases hst with
  | reopened =>
    cases hq : req e.client <;> simp [hq, Request.contends, Justified] at hr hj
  | left items kind =>
    cases hq : req e.client <;> simp [hq, Request.contends, Justified, LeaveOf] at hr hj
  | _ => rfl

/-- A contender rewrites a row only to change its status. -/
theorem Committed.contender (hc : Committed owner req hb e h)
    (hr : (req e.client).contends = true) {s : TableSession}
    (hs : lookup s.id e.before.sessions = some s) : lookup s.id e.after.sessions = some s ∨
      ∃ status, (s.id, s.status, status) ∈ e.statusChanges := by
  obtain ⟨s', hs', hst⟩ := hc.session hs
  have changed (hne : s.status ≠ s'.status) : ∃ status, (s.id, s.status, status) ∈ e.statusChanges := by
    refine ⟨s'.status, List.mem_filterMap.mpr ⟨s, mem_of_lookup hs, ?_⟩⟩
    simp [hs', hne]
  have hj := hc.justified
  cases hst with
  | kept => exact .inl hs'
  | reopened => exact .inr (changed (by simp [hc.valid.2.1]))
  | left items kind =>
    refine .inr (changed ?_)
    rw [Leave.row_status]
    rcases hc.valid.2.1 with ho | ⟨ha, rfl⟩
    · cases kind <;> simp [ho, Leave.status]
    · simp [ha, Leave.status]
  | _ => cases hq : req e.client <;> simp [hq, Request.contends, Justified, MoveOf] at hr hj

end Events

section Answers

variable {user : TokenPayload} {k : Uuid} {a : Response} {l : List (Event n)}

theorem answers_checkout (h : Answers owner (.checkoutSession user k) a l) :
    ∃ result, a = .checkout result ∧ ∃ e s, commitsOf l = [e] ∧ s.id = k ∧ s.status = .opened ∧
      Reports owner l e s result.autoCancelledItems result.totalAmount := by
  cases a with
  | checkout result => exact ⟨result, rfl, h⟩
  | _ => cases h

theorem answers_restore (h : Answers owner (.restoreSession user k) a l) :
    ∃ result, a = .restore result ∧ ∃ e s, commitsOf l = [e] ∧ s.id = k ∧
      match result.action with
      | .restored => Reopened owner e s
      | .checkedOut => s.status = .abandoned ∧ ∃ totalAmount, result.totalAmount = some totalAmount ∧
        Reports owner l e s result.autoCancelledItems totalAmount := by
  cases a with
  | restore result => exact ⟨result, rfl, h⟩
  | _ => cases h

theorem answers_sweep {r : Request} (hr : r = .runSweep ∨ ∃ k, r = .abandonSession k)
    (h : Answers owner r a l) : statusChanges l = announced l := by
  rcases hr with rfl | ⟨k, rfl⟩ <;> cases a <;> first | exact h | cases h

end Answers

namespace Deployment

variable {D : Deployment owner} {p : Clients n} {t : Fin n}

theorem Reaches.own_statusChanges (hr : D.Reaches req p) (t : Fin n) :
    (own t p.state.history).flatMap Event.statusChanges = statusChanges (own t p.state.history) := by
  refine (Concurrency.flatMap_filter fun e he hc => ?_).symm
  obtain ⟨hb, -, hen⟩ := hr.entry (List.mem_of_mem_filter he)
  exact hen.statusChanges_unchanged (hen.other hc)

/-- A client that has ended has changed the status of exactly the sessions it claims. -/
theorem Reaches.claims (hr : D.Reaches req p) {res : Except Exn Response}
    (hres : (p.threads t).answer = some res) :
    statusChanges (own t p.state.history) = claimed (req t) res (own t p.state.history) := by
  have ho := hr.kept.ended hres |>.2
  generalize hl : own t p.state.history = l at ho ⊢
  have quiet (hq : (req t).contends = false) : statusChanges l = [] := by
    rw [statusChanges, List.flatMap_eq_nil_iff]
    intro e he
    rw [← hl] at he
    obtain ⟨hm, hcl⟩ := List.mem_filter.mp (List.mem_of_mem_filter he)
    obtain ⟨hb, -, hen⟩ := hr.entry hm
    obtain ⟨h, hc⟩ := hen.committed (List.mem_filter.mp he).2
    exact hc.statusChanges (by simpa [of_decide_eq_true hcl] using hq)
  have none (hc : commitsOf l = []) : statusChanges l = [] := by simp [statusChanges, hc]
  have single {e : Event n} (hc : commitsOf l = [e]) : statusChanges l = e.statusChanges := by
    simp [statusChanges, hc]
  cases hq : req t with
  | checkoutSession user k =>
    rw [hq] at ho
    cases res with
    | error e => exact none (ho.checkout user k rfl)
    | ok a =>
      obtain ⟨result, rfl, e, s, hc, rfl, hs, hrep⟩ := answers_checkout ho
      obtain ⟨items, hleft, -⟩ := hrep.left
      rw [single hc, hleft.statusChanges, hs]
      rfl
  | restoreSession user k =>
    rw [hq] at ho
    cases res with
    | error e => exact none (ho.restore user k rfl).1
    | ok a =>
      obtain ⟨result, rfl, e, s, hc, rfl, hact⟩ := answers_restore ho
      rw [single hc, claimed]
      cases ha : result.action with
      | restored =>
        rw [ha] at hact
        exact hact.statusChanges
      | checkedOut =>
        rw [ha] at hact
        obtain ⟨hs, total, -, hrep⟩ := hact
        obtain ⟨items, hleft, -⟩ := hrep.left
        rw [hleft.statusChanges, hs]
        rfl
  | runSweep =>
    rw [hq] at ho
    cases res with
    | error e => exact ho.sweep (.inl rfl)
    | ok a => exact answers_sweep (.inl rfl) ho
  | abandonSession k =>
    rw [hq] at ho
    cases res with
    | error e => exact ho.sweep (.inr ⟨k, rfl⟩)
    | ok a => exact answers_sweep (.inr ⟨k, rfl⟩) ho
  | _ => exact quiet (by simp [hq, Request.contends])

theorem Reaches.session_status (hr : D.Reaches req p) {p' : Clients n}
    (hs : (machine owner n).Step p p') {k : Uuid} {s s' : TableSession}
    (hl : lookup k p.state.data.sessions = some s) (hl' : lookup k p'.state.data.sessions = some s') :
    s'.status = s.status ∨ s.status.Becomes s'.status := by
  rcases hr.step hs with hd | ⟨e, h, hc, hb, ha⟩
  · rw [hd, hl] at hl'
    cases hl'
    exact .inl rfl
  · obtain ⟨s₁, hs₁, hst⟩ := hc.session (hb ▸ hl)
    rw [ha, hl'] at hs₁
    cases hs₁
    exact hst.status hc.valid

theorem Reaches.closed_step (hr : D.Reaches req p) {p' : Clients n}
    (hs : (machine owner n).Step p p') {k : Uuid} {s : TableSession}
    (hl : lookup k p.state.data.sessions = some s) (hcl : s.status = .closed) :
    ∃ s', lookup k p'.state.data.sessions = some s' ∧ s.SettledAs s' := by
  rcases hr.step hs with hd | ⟨e, h, hc, hb, ha⟩
  · exact ⟨s, by rw [hd, hl], hcl, rfl, rfl⟩
  · obtain ⟨s', hs', hst⟩ := hc.session (hb ▸ hl)
    exact ⟨s', ha ▸ hs', hst.closed hc.valid hcl⟩

/-- A closed session stays closed, with its time of closing and its total. -/
theorem Reaches.closed_run (hr : D.Reaches req p) {p' : Clients n}
    (hp : (machine owner n).Reachable p p') {k : Uuid} {s : TableSession}
    (hl : lookup k p.state.data.sessions = some s) (hcl : s.status = .closed) :
    ∃ s', lookup k p'.state.data.sessions = some s' ∧ s.SettledAs s' := by
  induction hp with
  | refl => exact ⟨s, hl, hcl, rfl, rfl⟩
  | tail hp hs ih =>
    obtain ⟨s₁, hl₁, h₁⟩ := ih
    obtain ⟨s₂, hl₂, h₂⟩ := Reaches.closed_step (hr.trans hp) hs hl₁ h₁.status
    exact ⟨s₂, hl₂, h₂.status, h₂.closedAt.trans h₁.closedAt, h₂.totalAmount.trans h₁.totalAmount⟩

theorem Reaches.contender_rows (hr : D.Reaches req p) {e : Event n} (he : e ∈ p.state.history)
    (hq : (req e.client).contends = true) {s : TableSession} (hs : s ∈ e.before.sessions) :
    lookup s.id e.after.sessions = some s ∨
      ∃ status, (s.id, s.status, status) ∈ e.statusChanges := by
  obtain ⟨hb, -, hen⟩ := hr.entry he
  have hl := hen.ok.mem_sessions.mp hs
  rcases hen.unchanged_or_committed with ha | ⟨h, hc⟩
  · exact .inl (ha ▸ hl)
  · exact hc.contender hq hl

theorem Reaches.abandonedAt_present (hr : D.Reaches req p) {user : TokenPayload} {k : Uuid}
    (hq : req t = .restoreSession user k) :
    (p.threads t).answer ≠ some (.error (.http 400 missingAbandonedAt)) := by
  intro hres
  have ho : Fails (req t) _ _ := (hr.kept.ended hres).2
  exact (ho.restore user k hq).2 rfl

end Deployment

section Lifecycle

variable {D : Deployment owner} {p : Clients n}

/-- The lifecycle of sessions under any interleaving. -/
theorem session_lifecycle (hr : D.Reaches req p) :
    (∀ p', (machine owner n).Step p p' → ∀ k s s', lookup k p.state.data.sessions = some s →
      lookup k p'.state.data.sessions = some s' →
        s'.status = s.status ∨ s.status.Becomes s'.status) ∧
    Follows Event.before Event.after D.data p.state.history p.state.data ∧
    (∀ t res, (p.threads t).answer = some res →
      (own t p.state.history).flatMap Event.statusChanges =
        claimed (req t) res (own t p.state.history)) ∧
    (∀ e ∈ p.state.history, (req e.client).contends = true → ∀ s ∈ e.before.sessions,
      lookup s.id e.after.sessions = some s ∨
        ∃ status, (s.id, s.status, status) ∈ e.statusChanges) ∧
    (∀ p', (machine owner n).Reachable p p' → ∀ k s, lookup k p.state.data.sessions = some s →
      s.status = .closed → ∃ s', lookup k p'.state.data.sessions = some s' ∧ s.SettledAs s') ∧
    (∀ s ∈ p.state.data.sessions, s.Columns) ∧
    (∀ t user k, req t = .restoreSession user k →
      (p.threads t).answer ≠ some (.error (.http 400 missingAbandonedAt))) := by
  refine ⟨fun _ hs _ _ _ hl hl' => hr.session_status hs hl hl', hr.inv.follows,
    fun t res hres => ?_, fun _ he hq _ hs => hr.contender_rows he hq hs,
    fun _ hp _ _ hl hc => hr.closed_run hp hl hc, hr.inv.ok.sessionColumns,
    fun _ _ _ hq => hr.abandonedAt_present hq⟩
  rw [hr.own_statusChanges, hr.claims hres]

def cafeClosings : Fin 3 → Request
  | 0 => cafeOrder
  | 1 => .checkoutSession cafeStaff 10
  | 2 => .abandonSession 10

/-- A checkout and the sweep contend for the session of the first order. -/
theorem session_lifecycle_cafe : ∃ p, cafe.Reaches cafeClosings p ∧
    (∀ s ∈ p.state.data.sessions, s.Columns) ∧
    (own 1 p.state.history).flatMap Event.statusChanges = [(10, .opened, .closed)] := by
  obtain ⟨p, hr, hc⟩ := cafe.reaches_play cafeClosings
    (fun p => ((response p 1).bind Response.asCheckout).isSome)
    (steps 0 15 ++ steps 2 1 ++ steps 1 11 ++ steps 2 1) (by decide)
  obtain ⟨result, hres⟩ := Option.isSome_iff_exists.mp hc
  obtain ⟨r, hr₁, hresult⟩ := Option.bind_eq_some_iff.mp hres
  have ha := answer_of_response (hr₁.trans (congrArg some (Response.asCheckout_eq hresult)))
  have hl := session_lifecycle hr
  exact ⟨p, hr, hl.2.2.2.2.2.1, hl.2.2.1 1 _ ha⟩

end Lifecycle

end QOrder
