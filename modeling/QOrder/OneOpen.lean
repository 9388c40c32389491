import QOrder.ItemLifecycle

/-! One open session per table, and what callers of `get_or_open` get: a session of the
table that was open during the call, and the same one while nothing closes it. -/

namespace QOrder

open KeyedTable Concurrency

variable {n : Nat} {owner : Uuid → Uuid}

inductive Call
  | request (r : Request)
  /-- `get_or_open` itself, for the restaurant its callers pass: the one of the table. -/
  | getOrOpen (tableId : Uuid) (openedBy : Option Uuid)

def Call.program (owner : Uuid → Uuid) : Call → Action Response
  | request r => r.handler
  | getOrOpen tableId openedBy => do
    let opened ← SessionService.getOrOpen tableId (owner tableId) openedBy
    return .session opened.session

/-- The request whose discipline a call keeps to. -/
def Call.asRequest : Call → Request
  | request r => r
  | getOrOpen tableId openedBy => .openTable ⟨openedBy.getD 0, 0⟩ tableId

abbrev Deployment.Calls (D : Deployment owner) (calls : Fin n → Call) (p : Clients n) : Prop :=
  (machine owner n).Reachable ⟨D.initial n, fun t => (calls t).program owner⟩ p

def OpenAt (tableId sessionId : Uuid) (d : Data) : Prop :=
  ∃ s, lookup sessionId d.sessions = some s ∧ s.tableId = tableId ∧ s.status = .opened

/-- No open session of the table is closed or abandoned by these events. -/
def KeepsOpen (tableId : Uuid) (h : List (Event n)) : Prop :=
  ∀ e ∈ h, ∀ s ∈ e.before.sessions, s.tableId = tableId → s.status = .opened →
    e.after.statusOf s.id = some .opened

instance (tableId : Uuid) (h : List (Event n)) : Decidable (KeepsOpen tableId h) :=
  inferInstanceAs (Decidable (∀ e ∈ h, ∀ s ∈ e.before.sessions, _ → _ → _ = _))

section Window

variable {req : Fin n → Request} {tableId k k' : Uuid} {h : List (Event n)} {e e' : Event n} {d d' : Data}

theorem OpenAt.unique (hd : d.Ok owner) (ho : OpenAt tableId k d) (ho' : OpenAt tableId k' d) :
    k = k' := by
  obtain ⟨s, hs, ht, hst⟩ := ho
  obtain ⟨s', hs', ht', hst'⟩ := ho'
  have he := hd.oneOpen s (mem_of_lookup hs) s' (mem_of_lookup hs') hst hst' (ht'.trans ht.symm)
  rw [← show s.id = k from key_of_lookup hs, ← show s'.id = k' from key_of_lookup hs', he]

theorem not_noOpen_iff (hd : d.Ok owner) : ¬ d.NoOpen tableId ↔ ∃ k, OpenAt tableId k d := by
  simp only [Data.NoOpen, not_forall, not_not]
  constructor
  · rintro ⟨s, hs, ht, ho⟩
    exact ⟨s.id, s, hd.mem_sessions.mp hs, ht, ho⟩
  · rintro ⟨k, s, hs, ht, ho⟩
    exact ⟨s, mem_of_lookup hs, ht, ho⟩

/-- An open session stays open along events that keep it so. -/
theorem OpenAt.along (hent : ∀ e ∈ h, ∃ hb, Entry owner req hb e)
    (hf : Follows Event.before Event.after d h d') (hk : KeepsOpen tableId h)
    (ho : OpenAt tableId k d) : ∀ e ∈ h, OpenAt tableId k e.before ∧ OpenAt tableId k e.after := by
  induction h generalizing d with
  | nil => simp
  | cons x h ih =>
    obtain ⟨rfl, hf⟩ := hf
    obtain ⟨hb, hen⟩ := hent x List.mem_cons_self
    have hafter : OpenAt tableId k x.after := by
      obtain ⟨s, hs, ht, hst⟩ := ho
      have hl := hk x List.mem_cons_self s (mem_of_lookup hs) ht hst
      obtain ⟨s', hs', hst'⟩ := Option.map_eq_some_iff.mp hl
      obtain ⟨s₁, hs₁, ht₁, -⟩ := hen.grows.session hs
      rw [show s.id = k from key_of_lookup hs] at hs'
      cases hs'.symm.trans hs₁
      exact ⟨s', hs', ht₁.trans ht, hst'⟩
    have hrest := ih (fun e he => hent e (List.mem_cons_of_mem _ he)) hf
      (fun e he => hk e (List.mem_cons_of_mem _ he)) hafter
    intro e he
    rcases List.mem_cons.mp he with rfl | he
    · exact ⟨ho, hafter⟩
    · exact hrest e he

/-- The events of a run between two of its states. -/
structure Between (owner : Uuid → Uuid) (req : Fin n → Request) (h : List (Event n)) : Prop where
  entry : ∀ e ∈ h, ∃ hb, Entry owner req hb e
  follows : ∃ d d', Follows Event.before Event.after d h d'

theorem Kept.between {d₀ : Data} {p : Clients n} (hp : Kept owner req d₀ p) {pre post : List (Event n)}
    (hh : p.state.history = pre ++ h ++ post) : Between owner req h := by
  have hf := hp.inv.follows
  rw [hh, follows_append, ] at hf
  obtain ⟨d', hf, -⟩ := hf
  obtain ⟨d, -, hf⟩ := follows_append.mp hf
  refine ⟨fun e he => ?_, d, d', hf⟩
  obtain ⟨hb, -, hen⟩ := hp.entry (e := e) (by simp [hh, he])
  exact ⟨hb, hen⟩

theorem OpenAt.later {h₁ h₂ : List (Event n)} (hw : Between owner req (h₁ ++ e :: h₂))
    (hk : KeepsOpen tableId (h₁ ++ e :: h₂)) (ho : OpenAt tableId k e.after) (he : e' ∈ h₂) :
    OpenAt tableId k e'.before ∧ OpenAt tableId k e'.after := by
  obtain ⟨d, d', hf⟩ := hw.follows
  exact ho.along (fun x hx => hw.entry x (by simp [hx])) hf.split.2 (fun x hx => hk x (by simp [hx])) e' he

/-- While the open session of a table is kept, everyone meets the same one. -/
theorem open_agree (hw : Between owner req h) (hk : KeepsOpen tableId h) (he : e ∈ h) (he' : e' ∈ h)
    (ho : OpenAt tableId k e.after) (ho' : OpenAt tableId k' e'.after) : k = k' := by
  have ok (x : Event n) (hx : x ∈ h) : x.after.Ok owner := by
    obtain ⟨hb, hen⟩ := hw.entry x hx
    exact hen.after_ok
  obtain ⟨h₁, h₂, rfl⟩ := List.append_of_mem he
  rcases List.mem_append.mp he' with hm | hm
  · obtain ⟨a, b, rfl⟩ := List.append_of_mem hm
    have hmid : e ∈ b ++ e :: h₂ := by simp
    have hl := ho'.later (by simpa using hw) (by simpa using hk) hmid
    exact ho.unique (ok e he) hl.2
  · rcases List.mem_cons.mp hm with rfl | hm
    · exact ho.unique (ok e' he') ho'
    · exact (ho.later hw hk hm).2.unique (ok e' he') ho'

/-- While the open session of a table is kept, no client that met one then meets none. -/
theorem not_lost {t : Fin n} (hw : Between owner req h) (hk : KeepsOpen tableId h) :
    ¬ Lost tableId (own t h) := by
  rintro ⟨l₁, e, l₂, e', l₃, hl, ho, hno⟩
  obtain ⟨h₁, h₂, rfl, -, hr⟩ := filter_split hl
  have he' : e' ∈ h₂ := List.mem_of_mem_filter (hr ▸ List.mem_append_right _ List.mem_cons_self)
  obtain ⟨hb, hen⟩ := hw.entry e (by simp)
  obtain ⟨hb', hen'⟩ := hw.entry e' (by simp [he'])
  obtain ⟨k, ho⟩ := (not_noOpen_iff hen.after_ok).mp ho
  exact (not_noOpen_iff hen'.ok).mpr ⟨k, (ho.later hw hk he').1⟩ hno

end Window

section Calls

variable {D : Deployment owner} {calls : Fin n → Call} {p : Clients n}

theorem Call.keeps (d₀ : Data) (t : Fin n) :
    Triple owner (fun t => (calls t).asRequest) d₀ t .nothing [] ((calls t).program owner)
      (HandlerPost owner (calls t).asRequest) := by
  cases hc : calls t with
  | request r =>
    have hh : Triple owner (fun t => (calls t).asRequest) d₀ t .nothing []
      ((calls t).asRequest).handler (HandlerPost owner (calls t).asRequest) := Triple.handler t
    rw [hc] at hh
    exact hh
  | getOrOpen tableId openedBy =>
    refine (Triple.getOrOpen rfl (by simp)).bind ?_ ?_
    · rintro opened h' l' ⟨rfl, -, hseen, ht, -⟩
      exact .ret ⟨rfl, tableId, rfl, hseen.met, ht⟩
    · rintro e h' l' ⟨rfl, -, he⟩
      refine ⟨rfl, ⟨he.imp_right fun ⟨hm, hl⟩ => ⟨hm, tableId, rfl, hl⟩, ?_, ?_, ?_⟩⟩
      · simp [asRequest]
      · simp [asRequest]
      · simp [asRequest]

theorem Deployment.Calls.kept (hr : D.Calls calls p) :
    Kept owner (fun t => (calls t).asRequest) D.data p :=
  kept_of_reachable D (Call.keeps D.data) hr

/-- What a call of `get_or_open` answers. -/
theorem Deployment.Calls.got (hr : D.Calls calls p) {t : Fin n} {tableId : Uuid} {openedBy : Option Uuid}
    (hc : calls t = .getOrOpen tableId openedBy) {session : TableSession}
    (ha : (p.threads t).answer = some (.ok (.session session))) :
    session.tableId = tableId ∧ ∃ e ∈ own t p.state.history, OpenAt tableId session.id e.after := by
  have ho := (hr.kept.ended ha).2
  rw [hc] at ho
  obtain ⟨_, rfl, ⟨e, he, -, hopen⟩, ht⟩ := ho
  exact ⟨ht, e, he, hopen⟩

theorem Deployment.Calls.fails (hr : D.Calls calls p) {t : Fin n} {e : Exn}
    (ha : (p.threads t).answer = some (.error e)) :
    Fails (calls t).asRequest e (own t p.state.history) := (hr.kept.ended ha).2

theorem one_open_session (hr : D.Calls calls p) :
    (∀ s ∈ p.state.data.sessions, ∀ r ∈ p.state.data.sessions, s.status = .opened →
      r.status = .opened → r.tableId = s.tableId → r = s) ∧
    (∀ t, (p.threads t).answer ≠ some (.error .multipleResultsFound)) ∧
    (∀ t tableId openedBy session, calls t = .getOrOpen tableId openedBy →
      (p.threads t).answer = some (.ok (.session session)) →
        session.tableId = tableId ∧ ∃ e ∈ own t p.state.history, OpenAt tableId session.id e.after) ∧
    (∀ tableId pre mid post, p.state.history = pre ++ mid ++ post → KeepsOpen tableId mid →
      ∀ t openedBy, calls t = .getOrOpen tableId openedBy →
        own t p.state.history = own t mid →
        (∀ message, (p.threads t).answer ≠ some (.error (.runtimeError message))) ∧
        ∀ u openedBy' session session', calls u = .getOrOpen tableId openedBy' →
          own u p.state.history = own u mid →
          (p.threads t).answer = some (.ok (.session session)) →
          (p.threads u).answer = some (.ok (.session session')) → session.id = session'.id) := by
  refine ⟨hr.kept.inv.ok.oneOpen, fun t ha => ?_, fun t tableId openedBy session hc ha => hr.got hc ha,
    fun tableId pre mid post hh hk t openedBy hc hown => ⟨fun message ha => ?_,
      fun u openedBy' session session' hc' hown' ha ha' => ?_⟩⟩
  · rcases (hr.fails ha).cause with ho | ⟨⟨message, hm⟩, -⟩
    · exact ho
    · cases hm
  · have hf := hr.fails ha
    rw [hc, hown] at hf
    rcases hf.cause with ho | ⟨-, _, rfl, hl⟩
    · exact ho
    · exact not_lost (hr.kept.between hh) hk hl
  · obtain ⟨-, e, he, ho⟩ := hr.got hc ha
    obtain ⟨-, e', he', ho'⟩ := hr.got hc' ha'
    rw [hown] at he
    rw [hown'] at he'
    exact open_agree (hr.kept.between hh) hk (List.mem_of_mem_filter he) (List.mem_of_mem_filter he')
      ho ho'

def cafeCalls : Fin 2 → Call
  | 0 => .getOrOpen 2 none
  | 1 => .getOrOpen 2 (some 4)

/-- Two calls meet no session; the second loses the insert and recovers. -/
theorem one_open_session_cafe : ∃ p, cafe.Calls cafeCalls p ∧ ∃ session session',
    (p.threads 0).answer = some (.ok (.session session)) ∧
      (p.threads 1).answer = some (.ok (.session session')) ∧ session.id = session'.id := by
  obtain ⟨p, hr, hc⟩ := reachable_play (fun _ => 1)
    ⟨cafe.initial 2, fun t => (cafeCalls t).program fun _ => 1⟩
    (fun p => ((response p 0).bind Response.asSession).isSome &&
      ((response p 1).bind Response.asSession).isSome && decide (KeepsOpen 2 p.state.history))
    [.step 0, .step 1, .step 0, .step 0, .step 1, .step 1, .step 1, .step 0] (by decide)
  simp only [Bool.and_eq_true, Option.isSome_iff_exists, Option.bind_eq_some_iff,
    decide_eq_true_eq] at hc
  obtain ⟨⟨⟨session, r, hr₀, hs₀⟩, session', r', hr₁, hs₁⟩, hkeeps⟩ := hc
  have ha := answer_of_response (hr₀.trans (congrArg some (Response.asSession_eq hs₀)))
  have ha' := answer_of_response (hr₁.trans (congrArg some (Response.asSession_eq hs₁)))
  have hl := (one_open_session hr).2.2.2 2 [] p.state.history [] (by simp) hkeeps
  exact ⟨p, hr, session, session', ha, ha', (hl 0 none rfl rfl).2 1 _ _ _ rfl rfl ha ha'⟩

end Calls

end QOrder
