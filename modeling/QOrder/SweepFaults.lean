import QOrder.MenuEdits
import QOrder.SessionLock
import QOrder.SweepRace
import QOrder.Watch

/-! A sweep whose statements fail. Each session it has listed is abandoned as a whole or left as
it is, whatever becomes of the others. -/

namespace QOrder

open KeyedTable Concurrency

variable {n : Nat} {owner : Uuid → Uuid} {req : Fin n → Request} {D : Deployment owner} {d₀ : Data}
  {p : Clients n} {t : Fin n} {l l' : List (Event n)} {e : Event n} {row : StaleSession}
  {rows : List StaleSession}

/-- The sessions that the select of a sweep has listed. -/
def Event.found : Event n → Option (List StaleSession)
  | { stmt := .query .staleSessions, resp := .ok (.ok rows), .. } => some rows
  | _ => none

/-- The event abandons the session, cancels its unserved items, except for late ones, and dismisses
its pending calls. It changes no other row. -/
structure Event.Abandons (e : Event n) (k : Uuid) (late : List Uuid) : Prop where
  opened : e.before.statusOf k = some .opened
  sessions : e.after.sessions = e.before.sessions.map fun s => if s.id = k then s.abandon e.now else s
  orders : e.after.orders = e.before.orders
  items : e.after.items = e.before.items.map fun i =>
    if e.before.inSession k i ∧ i.id ∉ late then i.cancelIfUnserved e.now "session_abandoned" else i
  calls : e.after.calls = e.before.calls.map fun c =>
    if c.tableSessionId = k ∧ c.status = .pending then c.dismiss e.now else c

/-- What the guests and the kitchen hear of an abandoned session. -/
def farewell (row : StaleSession) (channel : Channel) : List RealtimeEvent :=
  if channel = .kitchen row.restaurantId ∨ channel = .session row.restaurantId row.id then
    [.sessionAbandoned row.id row.restaurantId]
  else []

/-- The events of the sweep at one session, from the compare-and-swap `e` on. Late are the items that
an order without the session's lock has added after the sweep has cancelled those it met. -/
structure SweepTurn (history : List (Event n)) (row : StaleSession) (e : Event n) (rest : List (Event n)) :
    Prop where
  cas : e.stmt = .command (.abandonSession row.id)
  abandoned : (∀ x ∈ e :: rest, x.succeeded = true) → e.before.statusOf row.id = some .opened →
    (∃ hb x post late, commitsOf (e :: rest) = [x] ∧ history = hb ++ x :: post ∧
        (∀ itemId, itemId ∈ late ↔ Slipped x.client (Stmt.takesItems row.id) row.id itemId hb) ∧
        x.Abandons row.id late) ∧
      ∀ channel, messagesOn channel (e :: rest) = farewell row channel
  spared : (∃ x ∈ e :: rest, x.succeeded = false) ∨ e.before.statusOf row.id ≠ some .opened →
    (∀ x ∈ e :: rest, x.after = x.before) ∧ ∀ channel, messagesOn channel (e :: rest) = []

/-- The statements of one turn of the loop. -/
inductive Attempt (row : StaleSession) : List (Event n) → Prop
  | lost {e : Event n} (hcas : e.stmt = .command (.abandonSession row.id)) (hrows : e.rows = {})
      (hn : e.before.statusOf row.id ≠ some .opened) : Attempt row [e]
  | raised {e r : Event n} {rest : List (Event n)} (hcas : e.stmt = .command (.abandonSession row.id))
      (hlen : rest.length ≤ 2) (hq : ∀ x ∈ rest, x.stmt.isCommand = true)
      (hfail : ∃ x ∈ e :: rest, x.succeeded = false) (hr : r.stmt = .rollback) :
      Attempt row (e :: (rest ++ [r]))
  | abandoned {e e₁ e₂ e₃ e₄ e₅ : Event n} {s : TableSession}
      (hcas : e.stmt = .command (.abandonSession row.id)) (hs : e.rows.sessions = [s])
      (hid : s.id = row.id) (hst : s.status = .abandoned)
      (hopen : e.before.statusOf row.id = some .opened)
      (h₁ : e₁.stmt.isCommand = true) (hs₁ : e₁.rows.sessions = [])
      (h₂ : e₂.stmt.isCommand = true) (hs₂ : e₂.rows.sessions = [])
      (hok : ∀ x ∈ [e, e₁, e₂, e₃, e₄, e₅], x.succeeded = true) (h₃ : e₃.stmt = .commit)
      (h₄ : e₄.stmt = .publish (.kitchen row.restaurantId) (.sessionAbandoned row.id row.restaurantId))
      (h₅ : e₅.stmt =
        .publish (.session row.restaurantId row.id) (.sessionAbandoned row.id row.restaurantId)) :
      Attempt row [e, e₁, e₂, e₃, e₄, e₅]

/-- The open transaction has changed nothing. -/
def Blank (l : List (Event n)) : Prop := written (current l) = {}

theorem Blank.snoc (h : Blank l) (he : e.rows = {}) : Blank (l ++ [e]) := by
  rw [Blank, current_snoc]
  split
  · rfl
  · rw [written_snoc, h, he]
    rfl

theorem Blank.ended (l : List (Event n)) (he : e.ends = true) : Blank (l ++ [e]) := by
  rw [Blank, current_snoc, if_pos he]
  rfl

theorem Event.ends_commit (h : e.stmt = .commit) : e.ends = true := by
  simp [Event.ends, h]

theorem Event.ends_rollback (h : e.stmt = .rollback) : e.ends = true := by
  simp [Event.ends, h]

theorem Event.ends_command (hq : e.stmt.isCommand = true) (hok : e.succeeded = true) : e.ends = false := by
  cases hs : e.stmt <;> simp [hs, Stmt.isCommand] at hq
  simp [Event.ends, hs, hok]

theorem Attempt.blank {m : List (Event n)} (hb : Blank l) (hm : Attempt row m) : Blank (l ++ m) := by
  have publish {x : Event n} {channel : Channel} {event : RealtimeEvent}
      (hx : x.stmt = .publish channel event) : x.rows = {} :=
    Event.rows_query (by simp [hx, Stmt.isCommand])
  cases hm with
  | lost hcas hrows hn => exact hb.snoc hrows
  | @raised e r rest hcas hlen hq hfail hr =>
    rw [show l ++ e :: (rest ++ [r]) = (l ++ e :: rest) ++ [r] by simp]
    exact Blank.ended _ (Event.ends_rollback hr)
  | @abandoned e e₁ e₂ e₃ e₄ e₅ s hcas hs hid hst hopen h₁ hs₁ h₂ hs₂ hok h₃ h₄ h₅ =>
    rw [show l ++ [e, e₁, e₂, e₃, e₄, e₅] = (l ++ [e, e₁, e₂]) ++ [e₃] ++ [e₄] ++ [e₅] by simp]
    exact ((Blank.ended _ (Event.ends_commit h₃)).snoc (publish h₄)).snoc (publish h₅)

theorem Attempt.length_le {m : List (Event n)} (hm : Attempt row m) : m.length ≤ 6 := by
  cases hm with
  | lost => simp
  | raised hcas hlen hq hfail hr =>
    simp only [List.length_cons, List.length_append, List.length_nil]
    omega
  | abandoned => exact le_rfl

namespace Watch

variable {I : List (Event n) → Stmt → Prop}

/-- What an attempt has come to before its exception is handled. -/
def Tried (row : StaleSession) (l : List (Event n)) : Except Exn Unit → List (Event n) → Prop
  | .ok _, l' => ∃ m, l' = l ++ m ∧ Attempt row m
  | .error _, l' => ∃ m, l' = l ++ m ∧ m.length ≤ 3 ∧ ∀ r : Event n, r.stmt = .rollback → Attempt row (m ++ [r])

theorem tried_raised {rest : List (Event n)} {x : Exn} (hcas : e.stmt = .command (.abandonSession row.id))
    (hlen : rest.length ≤ 2) (hq : ∀ x ∈ rest, x.stmt.isCommand = true)
    (hfail : ∃ x ∈ e :: rest, x.succeeded = false) : Tried row l (.error x) (l ++ e :: rest) :=
  ⟨e :: rest, rfl, Nat.succ_le_succ hlen, fun _ hr => .raised hcas hlen hq hfail hr⟩

theorem abandonSession (hb : Blank l) (hi : ∀ m q, m.length < 6 → I (l ++ m) q) :
    Watch owner req d₀ t anyEvent I (Scheduler.abandonSession row.id row.restaurantId) (Tried row l) l := by
  have hi₀ (q : Stmt) : I l q := by simpa using hi [] q (by simp)
  unfold Scheduler.abandonSession
  refine command (hi₀ _) (fun σ hinv ht hl hv _ => ?_) fun σ x hinv ht hl hv _ => ?_
  · have hview : σ.view t = σ.data := by
      have hw : σ.writes t = {} := by
        rw [ht.writes, hl]
        exact hb
      rw [Sys.view, hw, Data.overlay_empty]
    have hsessions : (σ.rows t (.abandonSession row.id)).sessions = changed
        (fun s => s.id == row.id && s.status == .opened) (fun s => s.abandon (σ.now t)) σ.data.sessions := by
      rw [Sys.rows, hview]
      rfl
    have hp : ∀ s : TableSession, (s.id == row.id && s.status == .opened) = true → key s = row.id := by
      intro s hs
      exact beq_iff_eq.mp (Bool.and_eq_true_iff.mp hs).1
    by_cases hopen : σ.data.statusOf row.id = some .opened
    · obtain ⟨s, hs, ho⟩ := Option.map_eq_some_iff.mp hopen
      have hid : s.id = row.id := key_of_lookup hs
      have hmatch : (s.id == row.id && s.status == .opened) = true := by simp [hid, ho]
      have hone := hsessions.trans (changed_eq_singleton hp hinv.ok.sessionIds hs hmatch)
      rw [hone, List.head?_cons]
      dsimp only
      refine command (hi [_] _ (by simp)) (fun σ₁ _ _ _ _ _ => ?_) fun σ₁ x _ _ _ _ _ => ?_
      · simp only [StaffCallService.dismissPending, bind_assoc, List.append_assoc, List.cons_append,
          List.nil_append]
        refine command (hi [_, _] _ (by simp)) (fun σ₂ _ _ _ _ _ => ?_) fun σ₂ x _ _ _ _ _ => ?_
        · simp only [Prog.pure_def, Prog.ret_bind, List.append_assoc, List.cons_append, List.nil_append]
          refine commit (hi [_, _, _] _ (by simp)) fun σ₃ _ _ _ _ => ?_
          simp only [Scheduler.publishAbandoned, List.append_assoc, List.cons_append, List.nil_append]
          refine publish (hi [_, _, _, _] _ (by simp)) fun σ₄ _ _ _ _ => ?_
          simp only [List.append_assoc, List.cons_append, List.nil_append]
          rw [← Prog.bind_ret (Action.publish _ _)]
          refine publish (hi [_, _, _, _, _] _ (by simp)) fun σ₅ _ _ _ _ => ?_
          rw [List.append_assoc]
          refine ⟨_, rfl, .abandoned rfl hone hid rfl hopen rfl rfl rfl rfl ?_ rfl rfl rfl⟩
          simp [Event.succeeded, Sys.event]
        · rw [List.append_assoc]
          refine tried_raised rfl (by simp) ?_ ?_
          · simp [Stmt.isCommand, Sys.event]
          · simp [Event.succeeded, Sys.event]
      · rw [List.append_assoc]
        refine tried_raised rfl (by simp) ?_ ?_
        · simp [Stmt.isCommand, Sys.event]
        · simp [Event.succeeded, Sys.event]
    · have hnil : (σ.rows t (.abandonSession row.id)).sessions = [] := by
        rw [hsessions]
        refine changed_eq_nil hp hinv.ok.sessionIds fun s hs => ?_
        by_contra hn
        refine hopen ?_
        simp_all [Data.statusOf]
      rw [hnil]
      refine ⟨_, rfl, .lost rfl ?_ hopen⟩
      rw [← hnil]
      rfl
  · exact tried_raised rfl (by simp) (by simp) ⟨_, List.mem_cons_self, rfl⟩

/-- The loop goes on after a session whose statements have failed. -/
theorem sweepRows (hb : Blank l) (hi : ∀ m q, m.length < 6 * rows.length → I (l ++ m) q) :
    Watch owner req d₀ t anyEvent I (Scheduler.sweepRows rows) (fun r l' => r = .ok () ∧
      ∃ turns, l' = l ++ turns.flatten ∧ List.Forall₂ Attempt rows turns) l := by
  induction rows generalizing l with
  | nil => exact ⟨rfl, [], by simp, .nil⟩
  | cons row rows ih =>
    have hone : Watch owner req d₀ t anyEvent I
        (Prog.tryCatch (Scheduler.abandonSession row.id row.restaurantId) fun _ => Action.rollback)
        (fun r l' => r = .ok () ∧ ∃ m, l' = l ++ m ∧ Attempt row m) l := by
      refine Along.tryCatch (abandonSession hb fun m q hm => ?_) ?_ ?_
      · refine hi m q ?_
        rw [List.length_cons]
        omega
      · rintro - l' ⟨m, rfl, hm⟩
        exact ⟨rfl, m, rfl, hm⟩
      · rintro x l' ⟨m, rfl, hlen, hm⟩
        rw [← Prog.bind_ret Action.rollback]
        refine rollback (hi m _ ?_) fun σ _ _ _ _ => ⟨rfl, m ++ [_], by rw [List.append_assoc], hm _ rfl⟩
        rw [List.length_cons]
        omega
    refine Along.bind hone ?_ ?_
    · rintro - l' ⟨-, m, rfl, hm⟩
      refine (ih (hm.blank hb) fun m' q hm' => ?_).mono ?_
      · rw [List.append_assoc]
        refine hi _ q ?_
        have hlen := hm.length_le
        rw [List.length_append, List.length_cons]
        omega
      · rintro r l' ⟨rfl, turns, rfl, hturns⟩
        exact ⟨rfl, m :: turns, by simp, .cons hm hturns⟩
    · rintro x l' ⟨hx, -⟩
      cases hx

/-- The statements after the select are at most six for each session it has listed. -/
def Within (l : List (Event n)) (_ : Stmt) : Prop :=
  ∀ e rest rows, l = e :: rest → e.found = some rows → rest.length < 6 * rows.length

theorem runSweep : Watch owner req d₀ t anyEvent Within Scheduler.runSweep (fun r l =>
    ∀ e rest rows, l = e :: rest → e.found = some rows → r = .ok () ∧
      ∃ turns, rest = turns.flatten ∧ List.Forall₂ Attempt rows turns) [] := by
  unfold Scheduler.runSweep
  refine query (fun e rest rows hl => by cases hl) fun σ _ _ _ _ => ?_
  cases hrows : Query.eval (σ.ctx t) σ.catalog (σ.view t) .staleSessions with
  | error x =>
    rintro e rest rows ⟨⟩ hf
    cases hf
  | ok rows =>
    have hb : Blank ([] ++ [σ.event t (.query .staleSessions) (.ok (.ok rows)) σ.data]) := by
      rw [Blank, current_snoc]
      rfl
    refine (sweepRows hb fun m q hm => ?_).mono ?_
    · rintro e rest rows' ⟨⟩ ⟨⟩
      exact hm
    · rintro r l' ⟨rfl, turns, rfl, hturns⟩ e rest rows' ⟨⟩ ⟨⟩
      exact ⟨rfl, turns, rfl, hturns⟩

end Watch

section Effects

/-- What a client commits is what its transaction has written. -/
theorem Deployment.Reaches.committed_written (hr : D.Reaches req p) {hb post : List (Event n)}
    (hh : p.state.history = hb ++ e :: post) (hc : e.stmt = .commit) : ∃ h, Committed owner req hb e h ∧
      h.writes e.now e.before = written (current (own e.client hb)) := by
  obtain ⟨p₀, q, k, r, σ', hr₀, rfl, hp, hx, hev, -⟩ := hr.replay hh
  have hq : q = .commit := by rw [← hc, hev]; rfl
  subst hq
  obtain ⟨h, ha, hcomplete, hj⟩ := hr₀.kept.ready hp
  have hw : h.writes (p₀.state.now e.client) p₀.state.data = written (current (own e.client p₀.state.history)) := by
    rw [← ha.writes, (hr₀.tracks e.client).writes]
  have hafter : σ'.data = p₀.state.data.overlay (h.writes (p₀.state.now e.client) p₀.state.data) := by
    rw [← ha.writes]
    cases hx with
    | kill hq => cases hq
    | perform => rfl
  rw [hev] at hw ⊢
  exact ⟨h, ⟨rfl, hr₀.inv.ok, ha.valid, hcomplete, hj, hafter⟩, hw⟩

theorem calls_dismissed {d w : Data} {s : TableSession} {now : Timestamp} (hd : d.Ok owner)
    (hs : lookup s.id d.sessions = some s) (hw : w.calls = d.dismissedCalls s.id s.restaurantId now) :
    (d.overlay w).calls = d.calls.map fun c =>
      if c.tableSessionId = s.id ∧ c.status = .pending then c.dismiss now else c := by
  have hf (c : StaffCall) : key (c.dismiss now) = key c := rfl
  rw [Data.overlay_calls, hw]
  refine (overlay_changed hf hd.callIds).trans (List.map_congr_left fun c hc => ?_)
  obtain ⟨s', hs', hr⟩ := hd.callSession c hc
  by_cases hk : c.tableSessionId = s.id
  · rw [hk, hs] at hs'
    cases hs'
    simp [hk, hr]
  · simp [hk]

/-- The items of a session that were met are those that are not late. -/
theorem mem_items_iff {d : Data} {k : Uuid} {items late : List OrderItem} {i : OrderItem} (hd : d.Ok owner)
    (hs : d.itemsOf k = items ++ late) (hi : i ∈ d.items) :
    i ∈ items ↔ d.inSession k i ∧ i.id ∉ late.map OrderItem.id := by
  have hids : (items.map key ++ late.map key).Nodup := by
    rw [← List.map_append, ← hs]
    exact hd.itemsOf_ids
  constructor
  · intro hm
    refine ⟨(Data.mem_itemsOf.mp (hs ▸ List.mem_append_left late hm)).2, fun hl => ?_⟩
    exact (List.nodup_append.mp hids).2.2 _ (List.mem_map_of_mem hm) _ hl rfl
  · rintro ⟨hin, hl⟩
    have hm : i ∈ items ++ late := hs ▸ Data.mem_itemsOf.mpr ⟨hi, hin⟩
    exact (List.mem_append.mp hm).resolve_right fun hm => hl (List.mem_map_of_mem hm)

/-- A commit of a sweep that leaves a session abandoned. -/
theorem Committed.abandons (hr : D.Reaches req p) {hb post : List (Event n)} {h : Holding} {s : TableSession}
    (hh : p.state.history = hb ++ e :: post) (hc : Committed owner req hb e h) (hreq : req e.client = .runSweep)
    (hs : (h.writes e.now e.before).sessions = [s]) (hst : s.status = .abandoned) : ∃ late,
      (∀ itemId, itemId ∈ late ↔ Slipped e.client (Stmt.takesItems s.id) s.id itemId hb) ∧
        e.Abandons s.id late := by
  have hj := hc.justified
  have hcomplete := hc.complete
  have hafter := hc.after
  rw [hreq] at hj
  cases h with
  | leaving x items kind stage =>
    have hmet := hj.2
    cases stage with
    | dismissed =>
      have hrow : kind.row e.now e.before x .dismissed = s := List.head_eq_of_cons_eq hs
      have hk : kind = .abandon := by
        rw [← hrow, Leave.row_status] at hst
        cases kind with
        | close => cases hst
        | abandon => rfl
      subst hk
      have hid : s.id = x.id := by
        rw [← hrow]
        exact Leave.row_id _
      have ho : x.status = .opened := by
        rcases hc.valid.2.1 with ho | ⟨-, hk⟩
        · exact ho
        · cases hk
      obtain ⟨late, hitems, -⟩ := hc.valid.2.2
      rw [hid]
      refine ⟨late.map OrderItem.id, fun itemId => ?_, ?_, ?_, ?_, ?_, ?_⟩
      · rw [slipped_iff hr hh hmet hitems, List.mem_map]
      · rw [Data.statusOf, hc.valid.1, Option.map_some, ho]
      · have hkey : key (x.abandon e.now) = key x := rfl
        rw [hafter]
        refine (overlay_row hc.valid.1 hkey).trans (List.map_congr_left fun y hy => ?_)
        by_cases hyx : y.id = x.id
        · obtain rfl := eq_of_key_eq hc.ok.sessionIds hy (mem_of_lookup hc.valid.1) hyx
          simp
        · simp [hyx]
      · rw [hafter]
        exact overlay_nil _
      · have hu := hc.valid.2.2.ids hc.ok
        have hsub : items ⊆ e.before.items := fun i hi => (Data.mem_itemsOf.mp (hc.valid.2.2.subset hi)).1
        rw [hafter, Data.items_cancelled hc.ok.itemIds hu hsub rfl]
        refine List.map_congr_left fun i hi => if_congr ?_ rfl rfl
        exact mem_items_iff hc.ok hitems hi
      · rw [hafter]
        exact calls_dismissed hc.ok hc.valid.1 rfl
    | _ => exact absurd hcomplete (by simp [Holding.Complete])
  | opening x =>
    have hx : x = s := List.head_eq_of_cons_eq hs
    rw [← hx, hc.valid.opened] at hst
    cases hst
  | _ => exact hj.elim

theorem messagesOn_append (channel : Channel) (l l' : List (Event n)) :
    messagesOn channel (l ++ l') = messagesOn channel l ++ messagesOn channel l' := List.filterMap_append

theorem messagesOn_silent {channel : Channel} (h : ∀ e ∈ l, ∀ c event, e.stmt ≠ .publish c event) :
    messagesOn channel l = [] := by
  refine List.filterMap_eq_nil_iff.mpr fun e he => ?_
  cases hs : e.stmt with
  | publish c event => exact absurd hs (h e he c event)
  | _ => rfl

/-- What the statements of a turn have come to. -/
theorem Attempt.sweepTurn {pre post m : List (Event n)} (hm : Attempt row m) (hr : D.Reaches req p)
    (hreq : req t = .runSweep) (hl : own t p.state.history = pre ++ (m ++ post)) (hb : Blank pre) :
    ∃ e rest, m = e :: rest ∧ SweepTurn p.state.history row e rest := by
  have hmem {x : Event n} (hx : x ∈ m) : x ∈ p.state.history := by
    refine List.mem_of_mem_filter (p := fun e => e.client = t) ?_
    change x ∈ own t p.state.history
    simp [hl, hx]
  have unchanged {x : Event n} (hx : x ∈ m) (hq : x.isCommit = false) : x.after = x.before := by
    obtain ⟨hb, -, hen⟩ := hr.entry (hmem hx)
    exact hen.other hq
  cases hm with
  | @lost e hcas hrows hn =>
    refine ⟨e, [], rfl, hcas, fun _ ho => absurd ho hn, fun _ => ⟨fun x hx => unchanged hx ?_, fun channel => ?_⟩⟩
    · rw [List.mem_singleton.mp hx]
      simp [Event.isCommit, hcas]
    · exact messagesOn_silent fun x hx c event => by
        rw [List.mem_singleton.mp hx, hcas]
        simp
  | @raised e r rest hcas hlen hq hfail hr' =>
    have kinds : ∀ x ∈ e :: (rest ++ [r]), x.stmt.isCommand = true ∨ x.stmt = .rollback := by
      intro x hx
      rcases List.mem_cons.mp hx with rfl | hx
      · simp [hcas, Stmt.isCommand]
      rcases List.mem_append.mp hx with hx | hx
      · exact .inl (hq x hx)
      · rw [List.mem_singleton.mp hx]
        exact .inr hr'
    refine ⟨e, rest ++ [r], rfl, hcas, fun hok => ?_, fun _ => ⟨fun x hx => unchanged hx ?_, fun channel => ?_⟩⟩
    · obtain ⟨x, hx, hf⟩ := hfail
      rw [hok x (by simpa using Or.imp_right Or.inl (List.mem_cons.mp hx))] at hf
      cases hf
    · rcases kinds x hx with hk | hk
      · cases hs : x.stmt <;> simp [hs, Stmt.isCommand] at hk
        simp [Event.isCommit, hs]
      · simp [Event.isCommit, hk]
    · refine messagesOn_silent fun x hx c event hs => ?_
      rcases kinds x hx with hk | hk
      · simp [hs, Stmt.isCommand] at hk
      · simp [hs] at hk
  | @abandoned e e₁ e₂ e₃ e₄ e₅ s hcas hs hid hst hopen h₁ hs₁ h₂ hs₂ hok h₃ h₄ h₅ =>
    have quiet {x : Event n} (hk : x.stmt.isCommand = true) : x.isCommit = false ∧
        ∀ c event, x.stmt ≠ .publish c event := by
      cases hx : x.stmt <;> simp [hx, Stmt.isCommand] at hk
      simp [Event.isCommit, hx]
    obtain ⟨hq, hn⟩ := quiet (x := e) (by simp [hcas, Stmt.isCommand])
    obtain ⟨hq₁, hn₁⟩ := quiet h₁
    obtain ⟨hq₂, hn₂⟩ := quiet h₂
    refine ⟨e, _, rfl, hcas, fun _ _ => ⟨?_, fun channel => ?_⟩, ?_⟩
    · have honly : commitsOf [e, e₁, e₂, e₃, e₄, e₅] = [e₃] := by
        have hc₄ : e₄.isCommit = false := by simp [Event.isCommit, h₄]
        have hc₅ : e₅.isCommit = false := by simp [Event.isCommit, h₅]
        have hc₃ : e₃.isCommit = true := by simp [Event.isCommit, h₃]
        simp [hq, hq₁, hq₂, hc₃, hc₄, hc₅]
      have hsplit : own t p.state.history = (pre ++ [e, e₁, e₂]) ++ e₃ :: ([e₄, e₅] ++ post) := by simp [hl]
      obtain ⟨hb', ha, hh, hown, -⟩ := filter_split hsplit
      have hclient : e₃.client = t := by
        have hin : e₃ ∈ own t p.state.history := by simp [hsplit]
        exact of_decide_eq_true (List.mem_filter.mp hin).2
      obtain ⟨h, hc, hw⟩ := hr.committed_written hh h₃
      have hends : e.ends = false ∧ e₁.ends = false ∧ e₂.ends = false :=
        ⟨Event.ends_command (by simp [hcas, Stmt.isCommand]) (hok _ (by simp)),
          Event.ends_command h₁ (hok _ (by simp)), Event.ends_command h₂ (hok _ (by simp))⟩
      have hwritten : (h.writes e₃.now e₃.before).sessions = [s] := by
        have hcurrent : current (own e₃.client hb') = current pre ++ [e] ++ [e₁] ++ [e₂] := by
          have hlist : own e₃.client hb' = pre ++ [e] ++ [e₁] ++ [e₂] := by
            rw [hclient]
            exact hown.trans (by simp)
          rw [hlist, current_snoc, current_snoc, current_snoc]
          simp [hends]
        rw [hw, hcurrent, written_snoc, written_snoc, written_snoc, show written (current pre) = {} from hb]
        simp [Data.overlay, hs, hs₁, hs₂]
      obtain ⟨late, hlate, habandons⟩ := hc.abandons hr hh (by rw [hclient, hreq]) hwritten hst
      rw [hid] at hlate habandons
      exact ⟨hb', e₃, ha, late, honly, hh, hlate, habandons⟩
    · have hsilent : messagesOn channel [e, e₁, e₂, e₃] = [] := by
        refine messagesOn_silent fun x hx => ?_
        simp only [List.mem_cons, List.not_mem_nil, or_false] at hx
        rcases hx with rfl | rfl | rfl | rfl
        · exact hn
        · exact hn₁
        · exact hn₂
        · simp [h₃]
      have hlast : messagesOn channel [e₄, e₅] = farewell row channel := by
        unfold messagesOn farewell
        rw [List.filterMap_cons, List.filterMap_cons, h₄, h₅, List.filterMap_nil]
        by_cases hk : channel = .kitchen row.restaurantId
        · simp [hk]
        · by_cases hsess : channel = .session row.restaurantId row.id
          · simp [hsess]
          · simp [hk, hsess, Ne.symm hk, Ne.symm hsess]
      rw [show [e, e₁, e₂, e₃, e₄, e₅] = [e, e₁, e₂, e₃] ++ [e₄, e₅] from rfl, messagesOn_append, hsilent, hlast]
      rfl
    · rintro (⟨x, hx, hf⟩ | hn)
      · rw [hok x hx] at hf
        cases hf
      · exact absurd hopen hn

theorem attempts_length_le {turns : List (List (Event n))} (h : List.Forall₂ Attempt rows turns) :
    turns.flatten.length ≤ 6 * rows.length := by
  induction h with
  | nil => exact le_rfl
  | cons hm _ ih =>
    have hlen := hm.length_le
    rw [List.flatten_cons, List.length_append, List.length_cons]
    omega

theorem attempts_sweepTurn {turns : List (List (Event n))} (h : List.Forall₂ Attempt rows turns)
    (hr : D.Reaches req p) (hreq : req t = .runSweep) {pre : List (Event n)} (hb : Blank pre)
    (hl : own t p.state.history = pre ++ turns.flatten) :
    List.Forall₂ (fun row turn => ∃ e rest, turn = e :: rest ∧ SweepTurn p.state.history row e rest) rows turns := by
  induction h generalizing pre with
  | nil => exact .nil
  | @cons row m rows turns hm _ ih =>
    rw [List.flatten_cons] at hl
    refine .cons (hm.sweepTurn hr hreq hl hb) (ih (hm.blank hb) ?_)
    rw [hl, List.append_assoc]

/-- Every session that a sweep has listed gets its turn, whatever statements of it fail. A turn
whose statements succeed on an open session abandons it; any other leaves everything as it is. -/
theorem sweep_survives {rest : List (Event n)} (hr : D.Reaches req p) (hreq : req t = .runSweep)
    (hl : own t p.state.history = e :: rest) (hf : e.found = some rows) :
    rest.length ≤ 6 * rows.length ∧ ∀ res, (p.threads t).answer = some res → res = .ok .done ∧
      ∃ turns, rest = turns.flatten ∧
        List.Forall₂ (fun row turn => ∃ e rest, turn = e :: rest ∧ SweepTurn p.state.history row e rest) rows turns := by
  have hhandler : (req t).handler = Scheduler.runSweep >>= fun _ => pure .done := by rw [hreq]; rfl
  have hw : Watch owner req D.data t anyEvent Watch.Within (req t).handler (fun r l =>
      ∀ e rest rows, l = e :: rest → e.found = some rows → r = .ok .done ∧
        ∃ turns, rest = turns.flatten ∧ List.Forall₂ Attempt rows turns) [] := by
    rw [hhandler]
    refine Along.bind Watch.runSweep (fun _ l' h e rest rows hl hf => ⟨rfl, (h e rest rows hl hf).2⟩) ?_
    intro x l' h e rest rows hl hf
    cases (h e rest rows hl hf).1
  have hend (res : Except Exn Response) (ha : (p.threads t).answer = some res) :=
    hr.watched (fun _ _ => trivial) hw ha e rest rows hl hf
  constructor
  · have hnow := hr.watch (fun _ _ => trivial) hw
    cases hp : p.threads t with
    | stmt q k =>
      rw [hp] at hnow
      exact Nat.le_of_lt (hnow.1 e rest rows hl hf)
    | ret a =>
      obtain ⟨-, turns, rfl, h⟩ := hend (.ok a) (by rw [hp]; rfl)
      exact attempts_length_le h
    | raise x =>
      obtain ⟨-, turns, rfl, h⟩ := hend (.error x) (by rw [hp]; rfl)
      exact attempts_length_le h
  · intro res ha
    obtain ⟨hres, turns, rfl, h⟩ := hend res ha
    have hrows : e.rows = {} := by
      unfold Event.found at hf
      split at hf
      · rfl
      · cases hf
    have hblank : Blank [e] := Blank.snoc (l := []) rfl hrows
    exact ⟨hres, turns, rfl, attempts_sweepTurn h hr hreq hblank hl⟩

end Effects

section Schedules

theorem Deployment.Reaches.replayed (hr : D.Reaches req p) {xs : List (Act n)} {p' : Clients n}
    (h : QOrder.replay owner xs p = some p') : D.Reaches req p' := by
  induction xs generalizing p with
  | nil =>
    cases h
    exact hr
  | cons x xs ih =>
    obtain ⟨m, hm, h⟩ := Option.bind_eq_some_iff.mp h
    exact ih (hr.tail (x.step hr.inv.owned hm)) h

def patioCatalog : Catalog :=
  { cafe.catalog with tables :=
    [{ id := 2, restaurantId := 1, qrToken := "ban-1" }, { id := 5, restaurantId := 1, qrToken := "ban-2" }] }

theorem patioCatalog_owned : patioCatalog.Owned fun _ => 1 := by
  simp [Catalog.Owned, patioCatalog]

/-- The café with a second table. -/
def cafePatio : Deployment fun _ => 1 where
  catalog := patioCatalog
  data := {}
  clock := 0
  appClock := 0
  nextUuid := 10
  owned := patioCatalog_owned
  ok := empty_ok
  below := empty_below

def cafeSweptPatio : Fin 3 → Request
  | 0 => .openTable cafeStaff 2
  | 1 => .openTable cafeStaff 5
  | 2 => .runSweep

/-- The sweep fails to cancel the items of the first table, and abandons the second. -/
def cafeFault : List (Act 3) :=
  List.replicate 5 (.perform 0) ++ List.replicate 5 (.perform 1) ++ .tick (hours 7) (hours 7) ::
    List.replicate 2 (.perform 2) ++ .kill 2 :: List.replicate 7 (.perform 2)

theorem sweep_survives_cafe : ∃ p, cafePatio.Reaches cafeSweptPatio p ∧
    p.state.data.statusOf 10 = some .opened ∧ p.state.data.statusOf 11 = some .abandoned ∧
    ∃ e turns rows, own 2 p.state.history = e :: turns.flatten ∧ e.found = some rows ∧ rows.length = 2 ∧
      List.Forall₂ (fun row turn => ∃ e rest, turn = e :: rest ∧ SweepTurn p.state.history row e rest) rows turns := by
  have hrun : (QOrder.replay (fun _ => 1) cafeFault (cafePatio.start cafeSweptPatio)).any (fun p =>
      p.state.data.statusOf 10 = some .opened && p.state.data.statusOf 11 = some .abandoned &&
      (p.threads 2).answer.isSome &&
      ((own 2 p.state.history).head?.bind Event.found).any fun rows => rows.length = 2) = true := by
    decide +kernel
  obtain ⟨p, hp, hc⟩ := (Option.any_eq_true _ _).mp hrun
  simp only [Bool.and_eq_true, decide_eq_true_eq] at hc
  obtain ⟨⟨⟨h₁₀, h₁₁⟩, hsome⟩, hfound⟩ := hc
  have hr : cafePatio.Reaches cafeSweptPatio p := Deployment.Reaches.replayed .refl hp
  obtain ⟨rows, hf, hlen⟩ := (Option.any_eq_true _ _).mp hfound
  obtain ⟨e, he, hf⟩ := Option.bind_eq_some_iff.mp hf
  obtain ⟨rest, hl⟩ := List.head?_eq_some_iff.mp he
  obtain ⟨res, ha⟩ := Option.isSome_iff_exists.mp hsome
  obtain ⟨-, turns, rfl, hturns⟩ := (sweep_survives hr rfl hl hf).2 res ha
  exact ⟨p, hr, h₁₀, h₁₁, e, turns, rows, hl, hf, of_decide_eq_true hlen, hturns⟩

end Schedules

end QOrder
