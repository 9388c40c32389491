import QOrder.Quiet
import QOrder.SweepRace

/-! One sweep for all tenants: its `SELECT` subtracts the timeout of every restaurant that
has an open session, and fails as a whole when one result is no timestamp. -/

namespace QOrder

open KeyedTable Concurrency

/-- The timeout of the session's restaurant reaches back before 4713 BC. -/
def TableSession.OutOfRange (s : TableSession) (c : Catalog) (at_ : Timestamp) : Prop :=
  ∃ rs ∈ c.settings, rs.restaurantId = s.restaurantId ∧ rs.staleBefore at_ < minTimestamp

section Select

variable {c : Catalog} {d : Data} {ctx : Ctx} {k : Uuid} {now : Timestamp}

theorem mem_openWithSettings {s : TableSession} {rs : RestaurantSettings} :
    (s, rs) ∈ openWithSettings c d ↔ s ∈ d.sessions ∧ s.status = .opened ∧
      rs ∈ c.settings ∧ rs.restaurantId = s.restaurantId := by
  simp only [openWithSettings, List.mem_flatMap, List.mem_filter, List.mem_map, Prod.mk.injEq, beq_iff_eq]
  constructor
  · rintro ⟨_, ⟨hs, ho⟩, _, ⟨hrs, hr⟩, rfl, rfl⟩
    exact ⟨hs, ho, hrs, hr⟩
  · rintro ⟨hs, ho, hrs, hr⟩
    exact ⟨s, ⟨hs, ho⟩, rs, ⟨hrs, hr⟩, rfl, rfl⟩

theorem staleSessions_eq : (Query.staleSessions.eval ctx c d : Except DbError (List StaleSession)) =
    if (openWithSettings c d).any fun p => p.2.staleBefore ctx.now < minTimestamp then .error .dataError
    else .ok <| ((openWithSettings c d).filter fun p => p.1.lastActivityAt < p.2.staleBefore ctx.now).map
      fun p => ⟨p.1.id, p.1.restaurantId, p.1.tableId⟩ := rfl

theorem staleSessions_error (h : ∃ s ∈ d.sessions, s.status = .opened ∧ s.OutOfRange c ctx.now) :
    (Query.staleSessions.eval ctx c d : Except DbError (List StaleSession)) = .error .dataError := by
  rw [staleSessions_eq, if_pos]
  obtain ⟨s, hs, ho, rs, hrs, hr, hlt⟩ := h
  exact List.any_eq_true.mpr ⟨(s, rs), mem_openWithSettings.mpr ⟨hs, ho, hrs, hr⟩, by simpa using hlt⟩

/-- Without such a timeout the `SELECT` lists exactly the stale sessions. -/
theorem staleSessions_ok (h : ¬ ∃ s ∈ d.sessions, s.status = .opened ∧ s.OutOfRange c ctx.now) :
    ∃ rows, (Query.staleSessions.eval ctx c d : Except DbError (List StaleSession)) = .ok rows ∧
      ∀ k, k ∈ rows.map StaleSession.id ↔ ∃ s ∈ d.sessions, s.id = k ∧ s.status = .opened ∧ s.Stale c ctx.now := by
  have hnone : ¬ ((openWithSettings c d).any fun p => p.2.staleBefore ctx.now < minTimestamp) = true := by
    intro hany
    obtain ⟨⟨s, rs⟩, hm, hlt⟩ := List.any_eq_true.mp hany
    obtain ⟨hs, ho, hrs, hr⟩ := mem_openWithSettings.mp hm
    exact h ⟨s, hs, ho, rs, hrs, hr, of_decide_eq_true hlt⟩
  rw [staleSessions_eq, if_neg hnone]
  refine ⟨_, rfl, fun k => ?_⟩
  simp only [List.map_map, List.mem_map, List.mem_filter, Function.comp_apply, decide_eq_true_eq]
  constructor
  · rintro ⟨⟨s, rs⟩, ⟨hm, hlt⟩, rfl⟩
    obtain ⟨hs, ho, hrs, hr⟩ := mem_openWithSettings.mp hm
    exact ⟨s, hs, rfl, ho, rs, hrs, hr, hlt⟩
  · rintro ⟨s, hs, rfl, ho, rs, hrs, hr, hlt⟩
    exact ⟨(s, rs), ⟨mem_openWithSettings.mpr ⟨hs, ho, hrs, hr⟩, hlt⟩, rfl⟩

end Select

/-- The sweep has abandoned the sessions `done` and kept the others as they were in `d`;
`w` is what its open transaction has written of the sessions. -/
structure Swept (d : Data) (now : Timestamp) (done : List Uuid) (w : List TableSession) (σ : Sys 1) :
    Prop where
  ids : UniqueKeys σ.data.sessions
  writes : (σ.writes 0).sessions = w
  abandoned : ∀ k ∈ done, ∃ s, lookup k σ.data.sessions = some s ∧ s.status = .abandoned
  kept : ∀ k ∉ done, lookup k σ.data.sessions = lookup k d.sessions
  read : ∀ e ∈ σ.history, e.stmt = .query .staleSessions → e.now = now
  selected : ∃ e ∈ σ.history, e.stmt = .query .staleSessions

namespace Swept

open Quiet

variable {d : Data} {now : Timestamp} {done : List Uuid} {w : List TableSession} {σ : Sys 1}
  {s : TableSession} {k restaurantId : Uuid}

theorem timeless : Timeless (Swept d now done w) := fun _ _ _ h => { h with }

/-- A statement that is not the sweep's `SELECT` and leaves the committed rows alone. -/
theorem record (h : Swept d now done w σ) {q : Stmt} {r : Except DbError q.Resp} {σ' : Sys 1}
    (hq : q ≠ .query .staleSessions) (hd : σ'.data = σ.data) {w' : List TableSession}
    (hw : (σ'.writes 0).sessions = w') : Swept d now done w' (σ.record 0 q r σ') where
  ids := by
    change UniqueKeys σ'.data.sessions
    rw [hd]
    exact h.ids
  writes := hw
  abandoned := by
    change ∀ k ∈ done, ∃ s, lookup k σ'.data.sessions = some s ∧ s.status = .abandoned
    rw [hd]
    exact h.abandoned
  kept := by
    change ∀ k ∉ done, lookup k σ'.data.sessions = lookup k d.sessions
    rw [hd]
    exact h.kept
  read e he hs := by
    rcases List.mem_append.mp he with he | he
    · exact h.read e he hs
    · rw [List.mem_singleton.mp he] at hs
      exact absurd hs hq
  selected := by
    obtain ⟨e, he, hs⟩ := h.selected
    exact ⟨e, List.mem_append_left _ he, hs⟩

theorem view_sessions (h : Swept d now done w σ) : (σ.view 0).sessions = overlay σ.data.sessions w := by
  rw [Sys.view, Data.overlay_sessions, h.writes]

theorem wrote (h : Swept d now done w σ) (c : Command) :
    Swept d now done (overlay w (σ.rows 0 c).sessions)
      (σ.record 0 (.command c) (.ok (σ.rows 0 c)) (σ.write 0 c)) := by
  have hq : Stmt.command c ≠ .query .staleSessions := by
    intro hq
    cases hq
  have hd : (σ.write 0 c).data = σ.data := rfl
  refine h.record hq hd ?_
  simp [Sys.write, h.writes]

/-- A command that writes no session. -/
theorem command {c : Command} (hc : ∀ ctx d, (c.rows ctx d).sessions = []) (hv : ∀ ctx d, c.violation ctx d = none) :
    Does (Swept d now done w) (Action.command c) fun r σ => ∃ rows, r = .ok rows ∧ Swept d now done w σ := by
  refine .command timeless (fun _ => timeless) hv fun σ h => ?_
  have hrows : (σ.rows 0 c).sessions = [] := hc _ _
  have hw := h.wrote c
  rwa [hrows, overlay_nil] at hw

theorem publish (channel : Channel) (event : RealtimeEvent) :
    Does (Swept d now done w) (Action.publish channel event) fun r σ => ∃ x, r = .ok x ∧ Swept d now done w σ :=
  .stmt timeless (fun _ => timeless) fun _ h => ⟨(), rfl, h.record (fun hq => by cases hq) rfl h.writes⟩

theorem dismissPending :
    Does (Swept d now done w) (StaffCallService.dismissPending k restaurantId) fun r σ =>
      ∃ x, r = .ok x ∧ Swept d now done w σ := by
  have hrows : ∀ ctx d, ((Command.dismissPending k restaurantId).rows ctx d).sessions = [] := fun _ _ => rfl
  refine .bind (command hrows fun _ _ => rfl) fun rows => ?_
  exact .ret timeless fun σ h => ⟨_, rfl, h⟩

/-- The commit of a session that the sweep has marked. -/
theorem commit (hs : s.status = .abandoned) :
    Does (Swept d now done [s]) Action.commit fun r σ => ∃ x, r = .ok x ∧ Swept d now (s.id :: done) [] σ := by
  refine .stmt timeless (fun _ => timeless) fun σ h => ⟨(), rfl, ?_⟩
  have hdata : (σ.perform 0 .commit).2.data.sessions = overlay σ.data.sessions [s] := h.view_sessions
  have hlookup (j : Uuid) : lookup j (σ.perform 0 .commit).2.data.sessions =
      if s.id = j then some s else lookup j σ.data.sessions := by
    rw [hdata, lookup_overlay, lookup_singleton, key_session]
    by_cases hj : s.id = j
    · rw [if_pos hj, if_pos hj, Option.some_or]
    · rw [if_neg hj, if_neg hj, Option.none_or]
  refine ⟨?_, ?_, fun j hj => ?_, fun j hj => ?_, fun e he hq => ?_, ?_⟩
  · rw [hdata]
    exact uniqueKeys_overlay h.ids (uniqueKeys_singleton s)
  · simp [Sys.perform, Sys.answer, Sys.commit, Sys.record]
  · by_cases hsj : s.id = j
    · exact ⟨s, by rw [hlookup, if_pos hsj], hs⟩
    · obtain ⟨s', hs', ha⟩ := h.abandoned j ((List.mem_cons.mp hj).resolve_left fun he => hsj he.symm)
      exact ⟨s', by rw [hlookup, if_neg hsj, hs'], ha⟩
  · rw [hlookup, if_neg fun he => hj (by simp [he])]
    exact h.kept j fun hd => hj (List.mem_cons_of_mem _ hd)
  · rcases List.mem_append.mp he with he | he
    · exact h.read e he hq
    · rw [List.mem_singleton.mp he] at hq
      cases hq
  · obtain ⟨e, he, hq⟩ := h.selected
    exact ⟨e, List.mem_append_left _ he, hq⟩

/-- The compare-and-swap of `_abandon_session`, on a session not yet swept. -/
theorem mark (hk : k ∉ done) (hs : lookup k d.sessions = some s) (ho : s.status = .opened) :
    Does (Swept d now done []) (Action.command (.abandonSession k)) fun r σ => ∃ rows, r = .ok rows ∧
      ∃ at_, rows.sessions = [s.abandon at_] ∧ Swept d now done [s.abandon at_] σ := by
  refine .command timeless ?_ (fun _ _ => rfl) fun σ h => ?_
  · rintro rows σ clock appClock ⟨at_, hr, h⟩
    exact ⟨at_, hr, timeless σ clock appClock h⟩
  have hl : lookup k (σ.view 0).sessions = some s := by
    rw [h.view_sessions, overlay_nil, h.kept k hk, hs]
  have hu : UniqueKeys (σ.view 0).sessions := by
    rw [h.view_sessions, overlay_nil]
    exact h.ids
  have hrows : (σ.rows 0 (.abandonSession k)).sessions = [s.abandon (σ.ctx 0).now] := by
    refine changed_eq_singleton (k := k) (fun r hr => ?_) hu hl ?_
    · have := (Bool.and_eq_true_iff.mp hr).1
      simpa using this
    · simp [ho, key_of_lookup hs, ← key_session]
  have hw := h.wrote (.abandonSession k)
  rw [hrows, nil_overlay] at hw
  exact ⟨_, hrows, hw⟩

/-- The compare-and-swap is lost on a session already swept. -/
theorem lost (hk : k ∈ done) :
    Does (Swept d now done []) (Action.command (.abandonSession k)) fun r σ => ∃ rows, r = .ok rows ∧
      rows.sessions = [] ∧ Swept d now done [] σ := by
  refine .command timeless ?_ (fun _ _ => rfl) fun σ h => ?_
  · rintro rows σ clock appClock ⟨hr, h⟩
    exact ⟨hr, timeless σ clock appClock h⟩
  have hrows : (σ.rows 0 (.abandonSession k)).sessions = [] := by
    refine changed_eq_nil (k := k) (fun r hr => ?_) ?_ fun r hr => ?_
    · have := (Bool.and_eq_true_iff.mp hr).1
      simpa using this
    · rw [h.view_sessions, overlay_nil]
      exact h.ids
    · rw [h.view_sessions, overlay_nil] at hr
      obtain ⟨s, hs, ha⟩ := h.abandoned k hk
      rw [hs] at hr
      cases hr
      simp [ha]
  have hw := h.wrote (.abandonSession k)
  rw [hrows, overlay_nil] at hw
  exact ⟨hrows, hw⟩

/-- `_abandon_session` on a session that the sweep has listed. -/
theorem abandonSession (hk : k ∈ done ∨ ∃ s, lookup k d.sessions = some s ∧ s.status = .opened) :
    Does (Swept d now done []) (Scheduler.abandonSession k restaurantId) fun r σ => ∃ x : Unit, r = .ok x ∧
      ∃ done', (∀ j, j ∈ done' ↔ j = k ∨ j ∈ done) ∧ Swept d now done' [] σ := by
  by_cases hd : k ∈ done
  · refine .bind (lost hd) fun rows σ hm => ?_
    rw [hm.1]
    have hdone (j : Uuid) : j ∈ done ↔ j = k ∨ j ∈ done := by
      constructor
      · exact .inr
      · rintro (rfl | hj)
        · exact hd
        · exact hj
    exact Does.ret timeless (fun σ h => ⟨(), rfl, done, hdone, h⟩) σ hm.2
  · obtain ⟨s, hs, ho⟩ := hk.resolve_left hd
    refine .bind (mark hd hs ho) fun rows σ ⟨at_, hr, h⟩ => ?_
    have hid : (s.abandon at_).id = k := key_of_lookup hs
    rw [hr]
    have hrows : ∀ ctx d, ((Command.cancelUnserved k "session_abandoned").rows ctx d).sessions = [] :=
      fun _ _ => rfl
    have hcommit : Does (Swept d now done [s.abandon at_]) Action.commit fun r σ =>
        ∃ x, r = .ok x ∧ Swept d now (k :: done) [] σ := hid ▸ commit rfl
    refine Does.bind (command hrows fun _ _ => rfl) (fun _ => ?_) σ h
    refine .bind dismissPending fun _ => ?_
    refine .bind hcommit fun _ => ?_
    refine .bind (publish _ _) fun _ => ?_
    have hdone (j : Uuid) : j ∈ k :: done ↔ j = k ∨ j ∈ done := List.mem_cons
    refine (publish _ _).mono fun r σ ⟨x, hr, h⟩ => ?_
    exact ⟨x, hr, k :: done, hdone, h⟩

theorem sweepRows {rows : List StaleSession}
    (hk : ∀ row ∈ rows, ∃ s, lookup row.id d.sessions = some s ∧ s.status = .opened) :
    Does (Swept d now done []) (Scheduler.sweepRows rows) fun r σ => ∃ x : Unit, r = .ok x ∧
      ∃ done', (∀ j, j ∈ done' ↔ j ∈ rows.map StaleSession.id ∨ j ∈ done) ∧ Swept d now done' [] σ := by
  induction rows generalizing done with
  | nil => exact .ret timeless fun σ h => ⟨(), rfl, done, by simp, h⟩
  | cons row rows ih =>
    have hrow : Does (Swept d now done []) (Scheduler.abandonSession row.id row.restaurantId) fun r σ =>
        ∃ x : Unit, r = .ok x ∧ ∃ done', (∀ j, j ∈ done' ↔ j = row.id ∨ j ∈ done) ∧ Swept d now done' [] σ :=
      abandonSession (.inr (hk row List.mem_cons_self))
    refine .bind hrow.tryCatch fun _ σ ⟨done', hd, h⟩ => ?_
    have hrest := @ih done' fun row hr => hk row (List.mem_cons_of_mem _ hr)
    refine hrest.mono (fun r σ ⟨x, hr, done'', hd', h⟩ => ⟨x, hr, done'', fun j => ?_, h⟩) σ h
    rw [hd', hd, List.map_cons, List.mem_cons, or_assoc, or_left_comm]

end Swept

section Sweep

open Quiet

variable {owner : Uuid → Uuid} {D : Deployment owner} {c : Catalog} {d : Data}

/-- Before the sweep. -/
structure Unswept (c : Catalog) (d : Data) (σ : Sys 1) : Prop where
  catalog : σ.catalog = c
  data : σ.data = d
  writes : σ.writes 0 = {}
  history : σ.history = []

/-- What a sweep comes to that has read at `now`. -/
def SweptAll (c : Catalog) (d : Data) (σ : Sys 1) : Prop :=
  ∃ now done, Swept d now done [] σ ∧
    ((¬ ∃ s ∈ d.sessions, s.status = .opened ∧ s.OutOfRange c now) ∧
        (∀ k, k ∈ done ↔ ∃ s ∈ d.sessions, s.id = k ∧ s.status = .opened ∧ s.Stale c now) ∨
      (∃ s ∈ d.sessions, s.status = .opened ∧ s.OutOfRange c now) ∧ done = [])

theorem SweptAll.timeless : Timeless (SweptAll c d) := by
  rintro σ clock appClock ⟨now, done, hs, h⟩
  exact ⟨now, done, Swept.timeless σ clock appClock hs, h⟩

theorem runSweep_does (hids : UniqueKeys d.sessions) :
    Does (Unswept c d) Scheduler.runSweep fun _ => SweptAll c d := by
  have hselect : Does (Unswept c d) (Action.query .staleSessions) fun r σ => ∃ a, r = .ok a ∧
      ∃ ctx : Ctx, a = Query.staleSessions.eval ctx c d ∧ Swept d ctx.now [] [] σ := by
    refine .stmt (fun _ _ _ h => { h with }) ?_ fun σ h => ?_
    · rintro a σ clock appClock ⟨ctx, ha, hs⟩
      exact ⟨ctx, ha, Swept.timeless σ clock appClock hs⟩
    have hview : σ.view 0 = d := by
      rw [Sys.view, h.writes, Data.overlay_empty, h.data]
    refine ⟨_, rfl, σ.ctx 0, ?_, ?_, ?_, by simp, fun k _ => ?_, fun e he _ => ?_, ?_⟩
    · rw [h.catalog, hview]
    · change UniqueKeys σ.data.sessions
      rwa [h.data]
    · change (σ.writes 0).sessions = []
      rw [h.writes]
    · change lookup k σ.data.sessions = lookup k d.sessions
      rw [h.data]
    · rw [Sys.perform, Sys.record, h.history, List.nil_append, List.mem_singleton] at he
      rw [he]
      rfl
    · exact ⟨_, List.mem_append_right _ (List.mem_singleton_self _), rfl⟩
  refine .bind hselect fun a σ h => ?_
  obtain ⟨ctx, ha, hs⟩ := h
  by_cases hrange : ∃ s ∈ d.sessions, s.status = .opened ∧ s.OutOfRange c ctx.now
  · rw [ha, staleSessions_error hrange]
    exact Does.raise Swept.timeless (fun σ hs => ⟨_, [], hs, .inr ⟨hrange, rfl⟩⟩) σ hs
  · obtain ⟨rows, hrows, hmem⟩ := staleSessions_ok hrange
    have hopen : ∀ row ∈ rows, ∃ s, lookup row.id d.sessions = some s ∧ s.status = .opened := by
      intro row hrow
      obtain ⟨s, hs, hk, ho, -⟩ := (hmem row.id).mp (List.mem_map_of_mem hrow)
      exact ⟨s, hk ▸ lookup_of_mem hids hs, ho⟩
    rw [ha, hrows]
    refine (Swept.sweepRows hopen).mono ?_ σ hs
    rintro r σ ⟨x, -, done, hd, hs⟩
    refine ⟨_, done, hs, .inl ⟨hrange, fun k => ?_⟩⟩
    rw [hd, hmem, or_iff_left List.not_mem_nil]

theorem runSweep_reaches {p : Clients 1} (h : quiet.Reachable (D.start fun _ => .runSweep) p)
    (hend : (p.threads 0).answer.isSome) : SweptAll D.catalog D.data p.state := by
  obtain ⟨r, hr⟩ := Option.isSome_iff_exists.mp hend
  have hdoes : Does (Unswept D.catalog D.data) (Request.handler .runSweep) fun _ => SweptAll D.catalog D.data :=
    (runSweep_does D.ok.sessionIds).seq (.ret SweptAll.timeless fun _ h => h)
  exact hdoes.reached ⟨rfl, rfl, rfl, rfl⟩ h hr

/-- The sweep's outcome on each open session is that of its own restaurant's timeout exactly
if no restaurant with an open session has a timeout out of range, or nothing is stale. -/
theorem sweep_timeouts {p : Clients 1} (h : quiet.Reachable (D.start fun _ => .runSweep) p)
    (hend : (p.threads 0).answer.isSome) :
    (∃ e ∈ p.state.history, e.stmt = .query .staleSessions) ∧
      ∀ e ∈ p.state.history, e.stmt = .query .staleSessions →
        ((∀ s ∈ D.data.sessions, s.status = .opened →
            (p.state.data.statusOf s.id = some .abandoned ↔ s.Stale D.catalog e.now)) ↔
          (∀ s ∈ D.data.sessions, s.status = .opened → ¬ s.OutOfRange D.catalog e.now) ∨
            ∀ s ∈ D.data.sessions, s.status = .opened → ¬ s.Stale D.catalog e.now) := by
  obtain ⟨now, done, hs, hdone⟩ := runSweep_reaches h hend
  refine ⟨hs.selected, fun e he hq => ?_⟩
  rw [hs.read e he hq]
  have hstatus : ∀ s ∈ D.data.sessions, s.status = .opened →
      (p.state.data.statusOf s.id = some .abandoned ↔ s.id ∈ done) := by
    intro s hm ho
    constructor
    · intro ha
      by_contra hk
      rw [Data.statusOf, hs.kept _ hk, ← key_session, lookup_of_mem D.ok.sessionIds hm] at ha
      have hne := ho.symm.trans (Option.some.inj ha)
      cases hne
    · intro hk
      obtain ⟨s', hs', ha⟩ := hs.abandoned _ hk
      rw [Data.statusOf, hs', Option.map_some, ha]
  rcases hdone with ⟨hrange, hdone⟩ | ⟨⟨s, hm, ho, hrange⟩, rfl⟩
  · refine iff_of_true (fun s hm ho => ?_) (.inl fun s hm ho hr => hrange ⟨s, hm, ho, hr⟩)
    rw [hstatus s hm ho, hdone]
    constructor
    · rintro ⟨s', hm', hk, -, hstale⟩
      rwa [eq_of_key_eq D.ok.sessionIds hm hm' hk.symm]
    · intro hstale
      exact ⟨s, hm, rfl, ho, hstale⟩
  · have hnone : ¬ ∀ s ∈ D.data.sessions, s.status = .opened → ¬ s.OutOfRange D.catalog now := by
      intro h
      exact h s hm ho hrange
    rw [or_iff_right hnone]
    refine forall₃_congr fun s hm ho => ?_
    rw [hstatus s hm ho]
    simp

/-- What `PATCH /admin/settings` accepts and the column holds. -/
def RestaurantSettings.Storable (rs : RestaurantSettings) : Prop :=
  1 ≤ rs.sessionTimeoutHours ∧ rs.sessionTimeoutHours ≤ int4Max

/-- Two restaurants with a guest each. The one gives its guests an hour, the other as long as
it has been told. -/
def twoCafes (hours : Nat) : Deployment fun k => k where
  catalog :=
    { settings := [{ restaurantId := 1, sessionTimeoutHours := 1 }, { restaurantId := 2, sessionTimeoutHours := hours }] }
  data :=
    { sessions := [⟨10, 1, 1, .opened, none, 0, 0, none, none, none⟩,
        ⟨20, 2, 2, .opened, none, 0, 0, none, none, none⟩] }
  clock := 7200000000
  appClock := 7200000000
  nextUuid := 30
  owned := by simp [Catalog.Owned]
  ok :=
    { sessionIds := by decide
      orderIds := by decide
      itemIds := by decide
      callIds := by decide
      restaurant := by simp
      sessionColumns := by simp [TableSession.Columns]
      itemColumns := by simp
      orderSession := by simp
      itemOrder := by simp
      callSession := by simp
      oneOpen := by simp }
  below := by
    refine ⟨?_, ?_, ?_, ?_⟩ <;> simp

/-- With six hours for the second restaurant, the sweep abandons the session of the first. -/
theorem sweep_timeouts_two : ∃ p, quiet.Reachable ((twoCafes 6).start fun _ => .runSweep) p ∧
    p.state.data.statusOf 10 = some .abandoned ∧ p.state.data.statusOf 20 ≠ some .abandoned := by
  obtain ⟨p, hr, hp, ha⟩ := quiet_alone ((twoCafes 6).initial 1) (Request.handler .runSweep)
  have hend : (p.threads 0).answer.isSome := by rw [ha, Option.isSome_some]
  have hnow : ∀ e ∈ p.state.history, e.now = 7200000000 := by
    rw [hp]
    decide +kernel
  obtain ⟨⟨e, he, hq⟩, hall⟩ := sweep_timeouts hr hend
  have hout := (hall e he hq).mpr (.inl ?_)
  · rw [hnow e he] at hout
    refine ⟨p, hr, (hout _ List.mem_cons_self rfl).mpr ?_, fun h20 => ?_⟩
    · exact ⟨_, List.mem_cons_self, rfl, by decide⟩
    · obtain ⟨rs, hrs, hid, hlt⟩ := (hout _ (List.mem_cons_of_mem _ List.mem_cons_self) rfl).mp h20
      rcases List.mem_cons.mp hrs with rfl | hrs
      · cases hid
      · rw [List.mem_singleton.mp hrs] at hlt
        revert hlt
        decide
  · rw [hnow e he]
    simp [twoCafes, TableSession.OutOfRange, RestaurantSettings.staleBefore, minTimestamp, hours]

/-- Two billion hours for the second restaurant keep the session of the first open. -/
theorem sweep_timeouts_fails : ¬ ∀ (owner : Uuid → Uuid) (D : Deployment owner),
    (∀ rs ∈ D.catalog.settings, rs.Storable) →
      ∀ p, quiet.Reachable (D.start fun _ => .runSweep) p → (p.threads 0).answer.isSome →
        ∀ e ∈ p.state.history, e.stmt = .query .staleSessions → ∀ s ∈ D.data.sessions,
          s.status = .opened → s.Stale D.catalog e.now → p.state.data.statusOf s.id = some .abandoned := by
  intro h
  obtain ⟨p, hr, hp, ha⟩ := quiet_alone ((twoCafes 2147483647).initial 1) (Request.handler .runSweep)
  have hend : (p.threads 0).answer.isSome := by rw [ha, Option.isSome_some]
  have hopen : p.state.data.statusOf 10 = some .opened := by
    rw [hp]
    decide +kernel
  have hnow : ∀ e ∈ p.state.history, e.now = 7200000000 := by
    rw [hp]
    decide +kernel
  have hstorable : ∀ rs ∈ (twoCafes 2147483647).catalog.settings, rs.Storable := by
    simp [twoCafes, RestaurantSettings.Storable, int4Max]
  obtain ⟨e, he, hq⟩ := (runSweep_reaches hr hend).choose_spec.choose_spec.1.selected
  have habandoned := h _ (twoCafes 2147483647) hstorable p hr hend e he hq _ List.mem_cons_self rfl
    ⟨_, List.mem_cons_self, rfl, by rw [hnow e he]; decide⟩
  have hne := hopen.symm.trans habandoned
  cases hne

end Sweep

end QOrder
