import QOrder.Closing
import QOrder.CustomerSteps

/-! Calls for staff. A call is inserted into the session its client resolved, whatever
has become of that session, and past a cooldown check that no insert of another client
has to wait for. -/

namespace QOrder

open KeyedTable Concurrency

variable {n : Nat} {owner : Uuid → Uuid} {req : Fin n → Request} {D : Deployment owner} {d₀ : Data}
  {p : Clients n} {t : Fin n} {hb : List (Event n)} {l l' : List (Event n)} {e : Event n} {k : Uuid}

section Orphans

/-- Pending calls belong to open sessions. -/
def NoOrphanCall (d : Data) : Prop :=
  ∀ c ∈ d.calls, c.status = .pending → d.statusOf c.tableSessionId = some .opened

/-- The calls that the event adds belong to sessions that are open at that moment. -/
def Event.CallsOpen (e : Event n) : Prop :=
  ∀ c ∈ e.after.calls, lookup c.id e.before.calls = none → c.status = .pending →
    e.before.statusOf c.tableSessionId = some .opened

instance (e : Event n) : Decidable e.CallsOpen :=
  inferInstanceAs (Decidable (∀ c ∈ e.after.calls, _ → _ → _))

theorem Committed.pending_call {h : Holding} (hc : Committed owner req hb e h) {c : StaffCall}
    (hm : c ∈ e.after.calls) (hp : c.status = .pending) :
    c ∈ e.before.calls ∨ lookup c.id e.before.calls = none := by
  cases hl : lookup c.id e.before.calls with
  | none => exact .inr rfl
  | some c₀ =>
    have hafter : e.after.Ok owner := by
      rw [hc.after]
      exact h.commit_ok hc.ok hc.valid hc.complete
    obtain ⟨c', hc', hst⟩ := h.call_step hc.ok hc.valid hc.complete hl
    rw [← hc.after, hafter.mem_calls.mp hm] at hc'
    cases hc'
    cases hst with
    | kept => exact .inl (mem_of_lookup hl)
    | acked =>
      obtain ⟨-, at_, by_, rfl⟩ := hc.valid
      cases hp
    | dismissed => cases hp

theorem Committed.new_call {h : Holding} (hc : Committed owner req hb e h) {c : StaffCall}
    (hm : c ∈ e.after.calls) (hn : lookup c.id e.before.calls = none) :
    ∃ s, lookup c.tableSessionId e.before.sessions = some s ∧
      lookup c.tableSessionId e.after.sessions = some (s.touch e.now) := by
  have hafter := hc.after
  have hv := hc.valid
  rw [hafter] at hm
  obtain ⟨s, rfl⟩ := Holding.call_new hc.ok hv hm hn hc.complete
  refine ⟨s, hv.tableSessionId ▸ hv.session, ?_⟩
  rw [hafter, hv.tableSessionId]
  simp [Holding.writes, lookup_singleton]

theorem Entry.noOrphanCall (hen : Entry owner req hb e) (h : NoOrphanCall e.before) :
    NoOrphanCall e.after ↔ e.CallsOpen := by
  rcases hen.unchanged_or_committed with ha | ⟨w, hc⟩
  · refine iff_of_true (ha ▸ h) fun c hm hn _ => ?_
    rw [ha, hen.ok.mem_calls, hn] at hm
    cases hm
  · constructor
    · intro hafter c hm hn hp
      obtain ⟨s, hs, hs'⟩ := hc.new_call hm hn
      have ho := hafter c hm hp
      simp only [Data.statusOf, hs, hs', Option.map_some] at ho ⊢
      exact ho
    · intro hopen c hm hp
      rcases hc.pending_call hm hp with hold | hn
      · have ho := h c hold hp
        obtain ⟨s, hs, hst⟩ := Option.map_eq_some_iff.mp ho
        have hk : s.id = c.tableSessionId := key_of_lookup hs
        obtain ⟨s', hs', hstep⟩ := hc.session hs
        rw [Data.statusOf, hs', Option.map_some]
        cases hstep with
        | reopened => rfl
        | left items kind =>
          have hleft : Left owner e s items kind := ⟨hc.commit, hc.ok, hc.valid, hc.after⟩
          exact absurd hp (hleft.no_pending c hm hk.symm)
        | _ => exact congrArg some hst
      · obtain ⟨s, hs, hs'⟩ := hc.new_call hm hn
        have ho := hopen c hm hn hp
        simp only [Data.statusOf, hs, hs', Option.map_some] at ho ⊢
        exact ho

/-- The committed states of a run so far. -/
def Deployment.committed (D : Deployment owner) (p : Clients n) : List Data :=
  D.data :: p.state.history.map Event.after

theorem Deployment.Reaches.committed (hr : D.Reaches req p) : p.state.data ∈ D.committed p :=
  hr.inv.follows.last

theorem no_orphan_call (hr : D.Reaches req p) (h₀ : NoOrphanCall D.data) :
    (∀ d ∈ D.committed p, NoOrphanCall d) ↔ ∀ e ∈ p.state.history, e.CallsOpen := by
  have hall := hr.inv.follows.all_iff h₀ fun e he h => by
    obtain ⟨hb, -, hen⟩ := hr.entry he
    exact hen.noOrphanCall h
  rw [← hall]
  simp [Deployment.committed, h₀]

def cafeOrphan : Fin 2 → Request
  | 0 => .callStaff "ban-1"
  | 1 => .checkoutSession cafeStaff 10

/-- The checkout waits for the call and acknowledges it. -/
theorem no_orphan_call_cafe : ∃ p, cafe.Reaches cafeOrphan p ∧ p.state.data.calls.length = 1 ∧
    p.state.data.statusOf 10 = some .closed ∧ ∀ d ∈ cafe.committed p, NoOrphanCall d := by
  obtain ⟨p, hr, hc⟩ := cafe.reaches_play cafeOrphan
    (fun p => decide (p.state.data.calls.length = 1 ∧ p.state.data.statusOf 10 = some .closed ∧
      ∀ e ∈ p.state.history, e.CallsOpen))
    (steps 0 13 ++ steps 1 9) (by decide +kernel)
  obtain ⟨hcalls, hst, hopen⟩ := of_decide_eq_true hc
  exact ⟨p, hr, hcalls, hst, (no_orphan_call hr (by simp [NoOrphanCall, cafe])).mpr hopen⟩

/-- The session is closed between the check of the cooldown and the insert of the call. -/
theorem no_orphan_call_fails : ¬ ∀ p, cafe.Reaches cafeOrphan p →
    ∀ d ∈ cafe.committed p, NoOrphanCall d := by
  intro h
  obtain ⟨p, hr, hc⟩ := cafe.reaches_play cafeOrphan
    (fun p => p.state.data.calls.any fun c => c.status == .pending &&
      p.state.data.statusOf c.tableSessionId == some .closed)
    (steps 0 8 ++ steps 1 9 ++ steps 0 3) (by decide +kernel)
  obtain ⟨c, hm, hc⟩ := List.any_eq_true.mp hc
  simp only [Bool.and_eq_true, beq_iff_eq] at hc
  have ho := h p hr _ hr.committed c hm hc.1
  rw [hc.2] at ho
  cases ho

end Orphans

section Cooldown

/-- The cooldown the client has read. -/
def Event.cooldown : Event n → Option Nat
  | { stmt := .query (.cooldown _), resp := .ok value, .. } =>
    some (value.getD StaffCallService.defaultCooldownSeconds)
  | _ => none

def cooldownsRead (l : List (Event n)) : List Nat := l.filterMap Event.cooldown

@[simp] theorem cooldownsRead_append (l l' : List (Event n)) :
    cooldownsRead (l ++ l') = cooldownsRead l ++ cooldownsRead l' := List.filterMap_append ..

@[simp] theorem cooldownsRead_nil : cooldownsRead ([] : List (Event n)) = [] := rfl

theorem Event.cooldown_opens (h : e.stmt.opens = true) : e.cooldown = none := by
  obtain ⟨client, stmt, resp, now, clock, appClock, catalog, before, after⟩ := e
  cases stmt with
  | query q => cases q <;> first | rfl | cases h
  | _ => rfl

theorem Opening.cooldownsRead (h : Opening l l') : cooldownsRead l' = cooldownsRead l := by
  obtain ⟨m, rfl, hm⟩ := h
  have hnone : QOrder.cooldownsRead m = [] :=
    List.filterMap_eq_nil_iff.mpr fun e he => Event.cooldown_opens (hm e he)
  rw [cooldownsRead_append, hnone, List.append_nil]

/-- The calls of the open transaction are dated by it, and past the check of the one
cooldown the client has read. -/
def CallsChecked (l : List (Event n)) : Prop :=
  ∀ c ∈ (written (current l)).calls, ∃ x ∈ l, ∃ cooldown,
    x.stmt = .query (.recentCall c.tableId cooldown) ∧ cooldownsRead l = [cooldown] ∧
      c.createdAt = x.now ∧
      ∀ c' ∈ x.before.calls, c'.tableId = c.tableId → c'.createdAt + seconds cooldown ≤ x.now

/-- Calls are committed only so. -/
def checkedCalls (l : List (Event n)) (q : Stmt) : Prop := q = .commit → CallsChecked l

theorem callsChecked_session {s : TableSession} (hidle : Idle l) (hends : e.ends = false)
    (hrows : e.rows = { sessions := [s] }) : CallsChecked (l ++ [e]) := by
  intro c hc
  rw [current_snoc, if_neg (by simp [hends]), written_snoc, written_idle hidle, hrows] at hc
  simp [Data.overlay] at hc

theorem recentCall_none {ctx : Ctx} {c : Catalog} {d : Data} {tableId : Uuid} {cooldown : Nat}
    (h : ¬ (Query.recentCall tableId cooldown).eval ctx c d = true) :
    ∀ c' ∈ d.calls, c'.tableId = tableId → c'.createdAt + seconds cooldown ≤ ctx.now := by
  intro c' hc' ht
  have hf := List.any_eq_false.mp (eq_false_of_ne_true h) c' hc'
  simp only [ht, beq_self_eq_true, Bool.true_and, decide_eq_true_eq, not_lt] at hf
  exact Int.add_le_of_le_sub_right hf

/-- The transaction of a call writes nothing but the session's activity and the call. -/
theorem callsChecked_insert {x e' : Event n} {c : StaffCall} {cooldown : Nat} (hidle : Idle l)
    (hx : x ∈ l) (hq : x.stmt = .query (.recentCall c.tableId cooldown))
    (hr : cooldownsRead l = [cooldown]) (he : e.ends = false) (hrows : e.rows.calls = [])
    (hread : e.cooldown = none) (he' : e'.ends = false) (hrows' : e'.rows = { calls := [c] })
    (hread' : e'.cooldown = none) (hnow : c.createdAt = x.now)
    (hold : ∀ c' ∈ x.before.calls, c'.tableId = c.tableId → c'.createdAt + seconds cooldown ≤ x.now) :
    CallsChecked (l ++ [e] ++ [e']) := by
  have hw : (written (current (l ++ [e] ++ [e']))).calls = [c] := by
    rw [current_snoc, if_neg (by simp [he']), current_snoc, if_neg (by simp [he]), written_snoc,
      written_snoc, written_idle hidle, hrows']
    simp [Data.overlay, hrows]
  have hreads : cooldownsRead (l ++ [e] ++ [e']) = [cooldown] := by
    rw [cooldownsRead_append, cooldownsRead_append, hr]
    simp [cooldownsRead, hread, hread']
  intro c' hc'
  rw [hw] at hc'
  obtain rfl := List.mem_singleton.mp hc'
  exact ⟨x, by simp [hx], cooldown, hq, hreads, hnow, hold⟩

theorem Watch.callStaff {qrToken : String} : Watch owner req d₀ t anyEvent checkedCalls
    (Customer.callStaff qrToken) (fun _ _ => True) [] := by
  have herr (e : Exn) (l : List (Event n)) : (fun _ _ => True : Except Exn (Option StaffCall) → _) (.error e) l :=
    trivial
  have hq (l : List (Event n)) (q : Query) : checkedCalls l (.query q) := fun h => by cases h
  have hcmd (l : List (Event n)) (c : Command) : checkedCalls l (.command c) := fun h => by cases h
  unfold Customer.callStaff
  refine resolve herr hq .nil fun table restaurant l₁ _ hidle₁ hopen₁ => ?_
  refine getOrOpen herr hq hidle₁ (fun l => hcmd l _) (fun l h => by cases h)
    (fun l e s hi he hr _ => callsChecked_session hi he hr) fun opened l₂ _ hidle₂ hopen₂ => ?_
  have hread : cooldownsRead l₂ = [] := by rw [hopen₂.cooldownsRead, hopen₁.cooldownsRead]; rfl
  unfold readAttribute
  split
  · trivial
  simp only [Prog.pure_def, Prog.ret_bind, StaffCallService.create, StaffCallService.getCooldown,
    bind_assoc]
  refine query (hq _ _) fun σ _ _ _ _ => query (hq _ _) fun σ₁ _ ht₁ hl₁ _ => ?_
  rw [ht₁.view (hl₁ ▸ hidle₂.snoc rfl)]
  split
  · trivial
  next hnone =>
    -- The check has passed, and what follows runs in the transaction it was made in.
    simp only [StaffCallService.insertCall, bind_assoc]
    refine command (hcmd _ _) (fun σ₂ _ _ _ _ _ => ?_) fun σ x _ _ _ _ _ => trivial
    refine command (hcmd _ _) (fun σ₃ _ ht₃ hl₃ _ _ => ?_) fun σ x _ _ _ _ _ => trivial
    simp only [Sys.rows, Command.rows, List.head?_cons, Action.scalarOne, Prog.pure_def, Prog.ret_bind]
    refine commit (fun _ => ?_) fun σ₄ _ _ _ _ => query (hq _ _) fun σ₅ _ _ _ _ => ?_
    · have hnow := ht₃.now (hl₃ ▸ mem_current (mem_current_last rfl) rfl) rfl
      refine callsChecked_insert ((hidle₂.snoc rfl).snoc rfl)
        (List.mem_append_right _ List.mem_cons_self) rfl ?_ rfl rfl rfl rfl rfl rfl hnow
        (recentCall_none hnone)
      rw [cooldownsRead_append, cooldownsRead_append, hread]
      rfl
    · refine scalarOne herr fun call _ => ?_
      simp only [StaffCallService.publishNew, bind_assoc]
      exact publish (fun h => by cases h) fun _ _ _ _ _ => publish (fun h => by cases h) fun _ _ _ _ _ => trivial

/-- Calls stay at their table and keep their date. -/
def CallsKeep (d d' : Data) : Prop :=
  ∀ k c, lookup k d.calls = some c →
    ∃ c', lookup k d'.calls = some c' ∧ c'.tableId = c.tableId ∧ c'.createdAt = c.createdAt

theorem CallsKeep.trans {d d' d'' : Data} (h : CallsKeep d d') (h' : CallsKeep d' d'') :
    CallsKeep d d'' := by
  intro k c hc
  obtain ⟨c', hc', ht, hd⟩ := h k c hc
  obtain ⟨c'', hc'', ht', hd'⟩ := h' k c' hc'
  exact ⟨c'', hc'', ht'.trans ht, hd'.trans hd⟩

theorem Entry.callsKeep (hen : Entry owner req hb e) : CallsKeep e.before e.after := by
  intro k c hc
  rcases hen.unchanged_or_committed with ha | ⟨h, hcm⟩
  · exact ⟨c, ha ▸ hc, rfl, rfl⟩
  · obtain ⟨c', hc', hst⟩ := h.call_step hcm.ok hcm.valid hcm.complete hc
    refine ⟨c', hcm.after ▸ hc', ?_⟩
    cases hst with
    | kept => exact ⟨rfl, rfl⟩
    | acked =>
      obtain ⟨-, at_, by_, rfl⟩ := hcm.valid
      exact ⟨rfl, rfl⟩
    | dismissed => exact ⟨rfl, rfl⟩

theorem Inv.callsKeep {σ : Sys n} (hi : Inv owner req d₀ σ) (he : e ∈ σ.history) :
    CallsKeep e.after σ.data :=
  hi.rel (R := CallsKeep) (fun _ _ c hc => ⟨c, hc, rfl, rfl⟩) CallsKeep.trans
    (fun _ _ hen => hen.callsKeep) he

theorem Deployment.Reaches.callsKeep (hr : D.Reaches req p) (he : e ∈ p.state.history) :
    CallsKeep e.before p.state.data := by
  obtain ⟨hb, -, hen⟩ := hr.entry he
  exact hen.callsKeep.trans (hr.inv.callsKeep he)

def Event.Creates (e : Event n) (k : Uuid) : Prop :=
  lookup k e.before.calls = none ∧ (lookup k e.after.calls).isSome

instance (e : Event n) (k : Uuid) : Decidable (e.Creates k) := inferInstanceAs (Decidable (_ ∧ _))

/-- The commit ends a call of the client that is past its checks. -/
theorem Deployment.Reaches.checked (hr : D.Reaches req p) {ha : List (Event n)}
    (hh : p.state.history = hb ++ e :: ha) (hk : e.Creates k) :
    ∃ c, lookup k e.after.calls = some c ∧ e.isCommit = true ∧ ∃ x ∈ own e.client hb, ∃ cooldown,
      x.stmt = .query (.recentCall c.tableId cooldown) ∧ cooldownsRead (own e.client hb) = [cooldown] ∧
      c.createdAt = x.now ∧
      ∀ c' ∈ x.before.calls, c'.tableId = c.tableId → c'.createdAt + seconds cooldown ≤ x.now := by
  obtain ⟨hnone, hsome⟩ := hk
  obtain ⟨c, hc⟩ := Option.isSome_iff_exists.mp hsome
  have hk : c.id = k := key_of_lookup hc
  have hen := hr.inv.logged hb e ha hh
  have hcommitted : ∃ h, Committed owner req hb e h := by
    refine hen.unchanged_or_committed.resolve_left fun hsame => ?_
    rw [hsame, hnone] at hc
    cases hc
  obtain ⟨h, hcm⟩ := hcommitted
  have hreq : ∃ qrToken, req e.client = .callStaff qrToken := by
    have hm := mem_of_lookup hc
    rw [hcm.after] at hm
    obtain ⟨s, rfl⟩ := Holding.call_new hcm.ok hcm.valid hm (hk ▸ hnone) hcm.complete
    have hj := hcm.justified
    cases hreq : req e.client with
    | callStaff qrToken => exact ⟨qrToken, rfl⟩
    | _ => simp [hreq, Justified] at hj
  obtain ⟨qrToken, hreq⟩ := hreq
  have hstmt : e.stmt = .commit := by
    have hi := hcm.commit
    cases hs : e.stmt <;> simp [Event.isCommit, hs] at hi ⊢
  have hw : Watch owner req D.data e.client anyEvent checkedCalls (req e.client).handler
      (fun _ _ => True) [] := by
    rw [hreq]
    exact Along.bind Watch.callStaff (fun _ _ _ => trivial) fun _ _ _ => trivial
  have hchecked := hr.guarded (fun _ _ => trivial) hw hh rfl hstmt
  -- The new row is one the transaction has written.
  obtain ⟨p₀, q, f, r, σ', hr₀, rfl, hp, hx, he, -⟩ := hr.replay hh
  have hmem : c ∈ (written (current (own e.client p₀.state.history))).calls := by
    have hq : q = .commit := (congrArg Event.stmt he).symm.trans hstmt
    subst hq
    have hbefore : e.before = p₀.state.data := congrArg Event.before he
    have hafter : e.after = p₀.state.view e.client := by
      cases hx with
      | perform => exact congrArg Event.after he
      | kill hq => cases hq
    rw [← (hr₀.tracks e.client).writes]
    rw [hbefore] at hnone
    rw [hafter, Sys.view, Data.overlay_calls, lookup_overlay, hnone, Option.or_none] at hc
    exact mem_of_lookup hc
  obtain ⟨x, hx, cooldown, h₁, h₂, h₃, h₄⟩ := hchecked c hmem
  exact ⟨c, hc, hcm.commit, x, hx, cooldown, h₁, h₂, h₃, h₄⟩

/-- The table whose calls the client looks at. -/
def Event.checks (e : Event n) : Option Uuid :=
  match e.stmt with
  | .query (.recentCall tableId _) => some tableId
  | _ => none

/-- The calls of the table that are committed by now were there when the client checked. -/
def Unraced (l : List (Event n)) (e : Event n) : Prop :=
  ∀ x ∈ l, ∀ tableId ∈ x.checks, ∀ c ∈ e.before.calls, c.tableId = tableId →
    (lookup c.id x.before.calls).isSome

instance (l : List (Event n)) (e : Event n) : Decidable (Unraced l e) :=
  inferInstanceAs (Decidable (∀ x ∈ l, ∀ tableId ∈ x.checks, _))

/-- Two calls of a table are as far apart as the cooldown that the later one has read. -/
def CooldownKept (p : Clients n) : Prop :=
  ∀ hb e ha, p.state.history = hb ++ e :: ha → ∀ c ∈ p.state.data.calls, ∀ c' ∈ p.state.data.calls,
    (lookup c.id e.before.calls).isSome → e.Creates c'.id → c.tableId = c'.tableId →
    ∃ cooldown, cooldownsRead (own e.client hb) = [cooldown] ∧
      c.createdAt + seconds cooldown ≤ c'.createdAt

theorem cooldown_kept (hr : D.Reaches req p) (hu : ∀ hb e ha, p.state.history = hb ++ e :: ha →
    e.isCommit = true → Unraced (own e.client hb) e) : CooldownKept p := by
  intro hb e ha hh c hc c' hc' hthere hcreates htab
  have he : e ∈ p.state.history := by simp [hh]
  obtain ⟨c₁, hc₁, hcommit, x, hx, cooldown, hq, hread, hnow, hold⟩ := hr.checked hh hcreates
  refine ⟨cooldown, hread, ?_⟩
  have hxm : x ∈ p.state.history := by
    rw [hh]
    exact List.mem_append_left _ (List.mem_of_mem_filter hx)
  -- The later call, as it was committed and as it is now.
  obtain ⟨c₁', hc₁', ht₁, hd₁⟩ := hr.inv.callsKeep he _ c₁ hc₁
  cases (hr.inv.ok.mem_calls.mp hc').symm.trans hc₁'
  -- The earlier call, now, before the later one was committed, and when it was checked.
  obtain ⟨c₂, hc₂⟩ := Option.isSome_iff_exists.mp hthere
  obtain ⟨c₂', hc₂', ht₂, -⟩ := hr.callsKeep he _ c₂ hc₂
  cases (hr.inv.ok.mem_calls.mp hc).symm.trans hc₂'
  have hseen := hu hb e ha hh hcommit x hx c₁.tableId (by rw [Event.checks, hq]; rfl) c₂
    (mem_of_lookup hc₂) (by rw [← ht₂, htab, ht₁])
  obtain ⟨c₃, hc₃⟩ := Option.isSome_iff_exists.mp hseen
  rw [show c₂.id = c.id from key_of_lookup hc₂] at hc₃
  obtain ⟨c₃', hc₃', ht₃, hd₃⟩ := hr.callsKeep hxm _ c₃ hc₃
  cases (hr.inv.ok.mem_calls.mp hc).symm.trans hc₃'
  have hle := hold c₃ (mem_of_lookup hc₃) (by rw [← ht₃, htab, ht₁])
  rw [hd₃, hd₁, hnow]
  exact hle

def cafeCallers (_ : Fin 2) : Request := .callStaff "ban-1"

/-- The second guest calls once the cooldown is over. -/
theorem cooldown_kept_cafe : ∃ p, cafe.Reaches cafeCallers p ∧ p.state.data.calls.length = 2 ∧
    CooldownKept p := by
  obtain ⟨p, hr, hc⟩ := cafe.reaches_play cafeCallers
    (fun p => decide (p.state.data.calls.length = 2 ∧
      ∀ e ∈ p.state.history, e.isCommit = true → Unraced (own e.client p.state.history) e))
    (steps 0 13 ++ .tick (seconds 60) (seconds 60) :: steps 1 11) (by decide +kernel)
  obtain ⟨hcalls, hu⟩ := of_decide_eq_true hc
  refine ⟨p, hr, hcalls, cooldown_kept hr fun hb e ha hh hcommit x hx => ?_⟩
  refine hu e (by simp [hh]) hcommit x ?_
  rw [hh, own_append]
  exact List.mem_append_left _ hx

/-- Both guests pass the check before either has called. -/
theorem cooldown_kept_fails : ¬ ∀ p, cafe.Reaches cafeCallers p → CooldownKept p := by
  intro h
  obtain ⟨p, hr, hc⟩ := cafe.reaches_play cafeCallers
    (fun p => decide ((∀ x ∈ p.state.history, ∀ cooldown ∈ x.cooldown, 0 < cooldown) ∧
      ∃ e ∈ p.state.history, ∃ c ∈ p.state.data.calls, ∃ c' ∈ p.state.data.calls,
        (lookup c.id e.before.calls).isSome ∧ e.Creates c'.id ∧ c.tableId = c'.tableId ∧
          c'.createdAt ≤ c.createdAt))
    (steps 0 8 ++ steps 1 5 ++ steps 0 3 ++ steps 1 3) (by decide +kernel)
  obtain ⟨hpos, e, he, c, hc, c', hc', hthere, hcreates, htab, hle⟩ := of_decide_eq_true hc
  obtain ⟨hb, ha, hh⟩ := List.append_of_mem he
  obtain ⟨cooldown, hread, hfar⟩ := h p hr hb e ha hh c hc c' hc' hthere hcreates htab
  obtain ⟨x, hx, hcool⟩ := List.mem_filterMap.mp
    (show cooldown ∈ cooldownsRead (own e.client hb) by rw [hread]; exact List.mem_cons_self)
  have hxm : x ∈ p.state.history := by
    rw [hh]
    exact List.mem_append_left _ (List.mem_of_mem_filter hx)
  have hp := hpos x hxm cooldown hcool
  have hsec : 0 < seconds cooldown := by
    simp only [seconds]
    omega
  exact absurd (hfar.trans hle) (not_le.mpr (lt_add_of_pos_right _ hsec))

end Cooldown

end QOrder
