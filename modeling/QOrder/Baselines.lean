import QOrder.Settlement
import QOrder.CustomerSteps
import QOrder.CustomerPage

/-! The baseline of a customer's page, the last activity of the session it has loaded. What was
published earlier had been committed before the items of the page were read. -/

namespace QOrder

open KeyedTable Concurrency

variable {n : Nat} {owner : Uuid → Uuid} {req : Fin n → Request} {D : Deployment owner} {d₀ : Data}
  {p : Clients n} {t : Fin n} {l : List (Event n)} {e f : Event n} {h : Holding} {α : Type}

/-- `time.time_ns()` at the event, whose clock shows microseconds. -/
def Event.Stamps (e : Event n) (seq : Nat) : Prop :=
  e.appClock * 1000 ≤ seq ∧ (seq : Int) < (e.appClock + 1) * 1000

/-- `new Date(last_activity_at).getTime() * 1_000_000`, as an integer. -/
def exactBase (lastActivityAt : Timestamp) : Nat := (lastActivityAt / 1000).toNat * 1000000

/-- Application and database read one clock. -/
def OneClock (p : Clients n) : Prop := ∀ e ∈ p.state.history, e.appClock = e.clock

section Activity

variable {hb post : List (Event n)}

/-- What holds at the start and is kept by every event holds of the data and the events so far. -/
theorem Deployment.Reaches.along (hr : D.Reaches req p) {P : List (Event n) → Data → Prop} (h₀ : P [] D.data)
    (hs : ∀ hb e post, p.state.history = hb ++ e :: post → P hb e.before → P (hb ++ [e]) e.after)
    (hh : p.state.history = hb ++ e :: post) : P hb e.before := by
  have follows (hb : List (Event n)) : ∀ post d, p.state.history = hb ++ post →
      Follows Event.before Event.after D.data hb d → P hb d := by
    induction hb using List.reverseRecOn with
    | nil =>
      rintro post d - rfl
      exact h₀
    | append_singleton hb e ih =>
      intro post d hh hf
      obtain ⟨m, hm, rfl, rfl⟩ := follows_append.mp hf
      have hh' : p.state.history = hb ++ e :: post := by simpa using hh
      exact hs hb e post hh' (ih (e :: post) e.before hh' hm)
  have hf := hr.inv.follows
  rw [hh] at hf
  exact follows hb _ e.before hh hf.split.1

/-- A commit leaves the last activity of a session, or sets it to a time the clock has shown. -/
theorem Committed.activity (hc : Committed owner req hb e h) {s' : TableSession} (hs' : s' ∈ e.after.sessions) :
    (∃ s ∈ e.before.sessions, s.lastActivityAt = s'.lastActivityAt) ∨ s'.lastActivityAt = e.now ∨
      ∃ x ∈ hb, x.appClock = s'.lastActivityAt := by
  have hafter := hc.after
  rw [hafter] at hs'
  cases hl : lookup s'.id e.before.sessions with
  | none =>
    obtain rfl := Holding.session_new hc.ok hc.valid hc.complete hs' hl
    exact .inr (.inl hc.valid.activity)
  | some s =>
    have hok := h.commit_ok hc.ok hc.valid hc.complete
    obtain ⟨w, hw, hst⟩ := hc.session hl
    rw [hafter, hok.mem_sessions.mp hs'] at hw
    cases hw
    have hs := mem_of_lookup hl
    cases hst with
    | kept => exact .inl ⟨s', hs, rfl⟩
    | reopened => exact .inr (.inl rfl)
    | left items kind => exact .inl ⟨s, hs, by cases kind <;> rfl⟩
    | moved => exact .inr (.inl rfl)
    | ordered o items at_ =>
      have hj := hc.justified
      cases hreq : req e.client with
      | createOrder qrToken body =>
        rw [hreq] at hj
        obtain ⟨x, hx, -, hat⟩ := hj.2.2
        exact .inr (.inr ⟨x, List.mem_of_mem_filter hx, hat⟩)
      | _ =>
        rw [hreq] at hj
        exact hj.elim
    | called => exact .inr (.inl rfl)

/-- No session has been active after the clock's time. -/
theorem Deployment.Reaches.activity_le (hr : D.Reaches req p) (h₀ : D.data = {}) (hc : OneClock p)
    (hh : p.state.history = hb ++ e :: post) {s : TableSession} (hs : s ∈ e.before.sessions) :
    s.lastActivityAt ≤ e.clock := by
  have hshown := hr.along (P := fun hb d => ∀ s ∈ d.sessions, ∃ x ∈ hb, s.lastActivityAt ≤ x.clock)
    (by simp [h₀]) (fun hb x post hh hbefore s' hs' => ?_) hh
  · obtain ⟨x, hx, hle⟩ := hshown s hs
    exact hle.trans ((hr.inv.logged hb e post hh).past x hx)
  · have hen := hr.inv.logged hb x post hh
    rcases hen.unchanged_or_committed with hu | ⟨h, hcommit⟩
    · obtain ⟨y, hy, hle⟩ := hbefore s' (hu ▸ hs')
      exact ⟨y, List.mem_append_left _ hy, hle⟩
    · rcases hcommit.activity hs' with ⟨s, hs, heq⟩ | heq | ⟨y, hy, heq⟩
      · obtain ⟨y, hy, hle⟩ := hbefore s hs
        exact ⟨y, List.mem_append_left _ hy, heq ▸ hle⟩
      · exact ⟨x, by simp, heq ▸ hen.began⟩
      · have hmem : y ∈ p.state.history := by simp [hh, hy]
        refine ⟨y, List.mem_append_left _ hy, ?_⟩
        rw [← heq, hc y hmem]

end Activity

namespace Watch

variable {post : Except Exn α → List (Event n) → Prop} {tableId restaurantId : Uuid}

/-- The client has read the committed row of the session. -/
def ReadRow (session : TableSession) (l : List (Event n)) : Prop := ∃ x ∈ l, session ∈ x.before.sessions

theorem findLoaded {f : Option TableSession → Action α} (hidle : Idle l)
    (hnone : ∀ e : Event n, e.stmt.isCommand = false →
      Watch owner req d₀ t anyEvent anywhere (f none) post (l ++ [e]))
    (hsome : ∀ (e : Event n) s, e.stmt.isCommand = false → ReadRow s (l ++ [e]) →
      Watch owner req d₀ t anyEvent anywhere (f (some s)) post (l ++ [e])) :
    Watch owner req d₀ t anyEvent anywhere (findOpenSession tableId [] >>= f) post l := by
  simp only [findOpenSession, bind_assoc]
  refine query trivial fun σ hi ht hl _ => ?_
  rw [ht.view (hl ▸ hidle), Query.eval]
  rcases openSessions_eq hi.ok tableId with ⟨-, he⟩ | ⟨s, hs, hst, ho, he⟩
  · simp only [he, Action.scalarOneOrNone, Prog.pure_def, Prog.ret_bind, Option.map_none]
    exact hnone _ rfl
  · simp only [he, Action.scalarOneOrNone, Prog.pure_def, Prog.ret_bind, Option.map_some]
    exact hsome _ s rfl ⟨_, List.mem_append_right _ List.mem_cons_self, hs⟩

theorem loadOrOpen {openedBy : Option Uuid} {f : SessionService.Opened → Action α} (hidle : Idle l)
    (herr : ∀ e l, post (.error e) l)
    (hok : ∀ opened l', Idle l' → ReadRow opened.session l' →
      Watch owner req d₀ t anyEvent anywhere (f opened) post l') :
    Watch owner req d₀ t anyEvent anywhere
      (SessionService.getOrOpen tableId restaurantId openedBy >>= f) post l := by
  simp only [SessionService.getOrOpen, bind_assoc]
  refine findLoaded hidle (fun e hc => ?_) fun e s hc hs => ?_
  · simp only [bind_assoc]
    refine attempt trivial (fun σ _ _ _ _ _ => ?_) fun σ x _ _ _ _ _ => ?_
    · simp only [SessionService.commitNew, bind_assoc]
      refine scalarOne herr fun s _ => commit trivial fun σ₁ _ _ _ _ => ?_
      refine query trivial fun σ₂ _ ht hl _ => scalarOne herr fun row hrow => ?_
      have hidle₂ : Idle (own t σ₂.history) := by
        rw [hl]
        exact Idle.ended _ rfl
      rw [ht.view hidle₂, Query.eval] at hrow
      refine hok ⟨row, false⟩ _ ((Idle.ended _ rfl).snoc rfl) ?_
      exact ⟨_, List.mem_append_right _ List.mem_cons_self, mem_of_lookup hrow⟩
    · cases x with
      | uniqueViolation =>
        simp only [SessionService.recoverRace, bind_assoc]
        refine rollback trivial fun σ₁ _ _ _ _ => ?_
        refine findLoaded (Idle.ended _ rfl) (fun e' _ => herr _ _) fun e' s hc' hs => ?_
        exact hok ⟨s, true⟩ _ ((Idle.ended _ rfl).snoc hc') hs
      | _ => exact herr _ _
  · exact hok ⟨s, false⟩ _ (hidle.snoc hc) hs

/-- A snapshot ends with the read of the items, after that of the session. -/
def Snapshots (r : Except Exn (TableSession × List OrderItem)) (l : List (Event n)) : Prop :=
  ∀ a, r = .ok a → ∃ pre e, l = pre ++ [e] ∧ e.stmt = .query (.itemsOfSession a.1.id) ∧
    a.2 = (e.before.itemsOf a.1.id).mergeSort (fun i j => i.requestedAt ≤ j.requestedAt) ∧ ReadRow a.1 pre

theorem getSessionSnapshot {qrToken : String} : Watch owner req d₀ t anyEvent anywhere
    (Customer.getSessionSnapshot qrToken) Snapshots [] := by
  have herr (e : Exn) (l : List (Event n)) : Snapshots (.error e) l := by
    rintro a ⟨⟩
  unfold Customer.getSessionSnapshot
  refine resolve herr (fun _ _ => trivial) Idle.nil fun table restaurant l' _ hidle _ => ?_
  refine loadOrOpen hidle herr fun opened l₁ hidle₁ hread => ?_
  refine query trivial fun σ _ ht hl _ => ?_
  rintro a ⟨⟩
  refine ⟨l₁, _, rfl, rfl, ?_, hread⟩
  rw [ht.view (hl ▸ hidle₁), Query.eval]
  rfl

end Watch

section Baseline

variable {channel : Channel} {event : RealtimeEvent} {seq : Nat} {session : TableSession}
  {items : List OrderItem} {qrToken : String}

/-- The hook drops the message, which is not newer than the snapshot. -/
def Discards (session : TableSession) (seq : Nat) : Prop := seq ≠ 0 ∧ seq ≤ exactBase session.lastActivityAt

/-- The event `r` reads the items of the snapshot. -/
structure ReadsItems (t : Fin n) (session : TableSession) (items : List OrderItem) (r : Event n) : Prop where
  client : r.client = t
  stmt : r.stmt = .query (.itemsOfSession session.id)
  items : items = (r.before.itemsOf session.id).mergeSort fun i j => i.requestedAt ≤ j.requestedAt

/-- Before the data `d` were read, the client `u` had committed what the message is about. -/
def Contained (owner : Uuid → Uuid) (u : Fin n) (channel : Channel) (event : RealtimeEvent)
    (hb : List (Event n)) (d : Data) : Prop :=
  ∃ l₁ e l₂ h, hb = l₁ ++ e :: l₂ ∧ e.client = u ∧ e.Made owner h ∧ h.Announces channel event ∧
    Follows Event.before Event.after e.after l₂ d

theorem stamp_le {clock last : Int} {seq : Nat} (hlow : clock * 1000 ≤ seq) (h0 : seq ≠ 0)
    (hbase : seq ≤ (last / 1000).toNat * 1000000) : clock ≤ last := by
  omega

theorem stamp_eq {last : Int} {seq : Nat} (hlow : last * 1000 ≤ seq)
    (hbase : seq ≤ (last / 1000).toNat * 1000000) : seq = (last / 1000).toNat * 1000000 := by
  omega

/-- A message had been committed before the items of the snapshot were read if it was published
before they were. -/
theorem Deployment.Reaches.contained (hr : D.Reaches req p) {hb post : List (Event n)} {r : Event n}
    (hh : p.state.history = hb ++ r :: post) (hf : f ∈ hb) (hq : f.stmt = .publish channel event) :
    Contained owner f.client channel event hb r.before := by
  obtain ⟨m₁, m₂, rfl⟩ := List.append_of_mem hf
  have hh' : p.state.history = m₁ ++ f :: (m₂ ++ r :: post) := by simpa using hh
  obtain ⟨l₁, e, l₂, h, hown, -, hmade, han⟩ := (hr.inv.logged m₁ f _ hh').told channel event hq
  obtain ⟨k₁, k₂, rfl, -, -⟩ := filter_split hown
  have hclient : e.client = f.client := by
    have hin : e ∈ own f.client (k₁ ++ e :: k₂) := by
      rw [hown]
      exact List.mem_append_right _ List.mem_cons_self
    exact of_decide_eq_true (List.mem_filter.mp hin).2
  refine ⟨k₁, e, k₂ ++ f :: m₂, h, by simp, hclient, hmade, han, ?_⟩
  have hfollows := hr.inv.follows
  rw [hh', show k₁ ++ e :: k₂ ++ f :: (m₂ ++ r :: post) =
    k₁ ++ e :: (k₂ ++ f :: m₂ ++ r :: post) by simp] at hfollows
  exact hfollows.split.2.split.1

/-- A discarded message is about a change that the snapshot contains, unless it was published at
the very time that the last activity of the session shows. -/
theorem discarded_contained (hr : D.Reaches req p) (h₀ : D.data = {}) (hc : OneClock p)
    (hreq : req t = .getSessionSnapshot qrToken)
    (ha : (p.threads t).answer = some (.ok (.snapshot session items))) (hf : f ∈ p.state.history)
    (hq : f.stmt = .publish channel event) (hseq : f.Stamps seq) (hd : Discards session seq) :
    ∃ hb r post, p.state.history = hb ++ r :: post ∧ ReadsItems t session items r ∧
      (Contained owner f.client channel event hb r.before ∨
        seq = exactBase session.lastActivityAt ∧ f.clock = session.lastActivityAt) := by
  have hhandler : (req t).handler = Customer.getSessionSnapshot qrToken >>= fun a =>
      pure (.snapshot a.1 a.2) := by rw [hreq]; rfl
  obtain ⟨a, hres, hsnap⟩ | ⟨x, hres, -⟩ := hr.wrapped hhandler (fun _ _ => trivial)
    Watch.getSessionSnapshot ha
  swap
  · cases hres
  cases hres
  obtain ⟨pre, r, hown, hstmt, hitems, x, hx, hs⟩ := hsnap a rfl
  obtain ⟨hb, post, hh, hpre, -⟩ := filter_split hown
  have hclient : r.client = t := by
    have hin : r ∈ own t p.state.history := by
      rw [hown]
      exact List.mem_append_right _ List.mem_cons_self
    exact of_decide_eq_true (List.mem_filter.mp hin).2
  refine ⟨hb, r, post, hh, ⟨hclient, hstmt, hitems⟩, ?_⟩
  have hcases : f ∈ hb ∨ f = r ∨ f ∈ post := by simpa [hh] using hf
  rcases hcases with hf | rfl | hf
  · exact .inl (hr.contained hh hf hq)
  · rw [hstmt] at hq
    cases hq
  · right
    -- The last activity is not later than the read of the session, nor that than the message.
    have hxb : x ∈ hb := List.mem_of_mem_filter (hpre ▸ hx)
    obtain ⟨h₁, h₂, rfl⟩ := List.append_of_mem hxb
    obtain ⟨k₁, k₂, rfl⟩ := List.append_of_mem hf
    have hx' : p.state.history = h₁ ++ x :: (h₂ ++ r :: (k₁ ++ f :: k₂)) := by simpa using hh
    have hf' : p.state.history = (h₁ ++ x :: (h₂ ++ r :: k₁)) ++ f :: k₂ := by simpa using hh
    have hlast : a.1.lastActivityAt ≤ x.clock := hr.activity_le h₀ hc hx' hs
    have hlater : x.clock ≤ f.clock := (hr.inv.logged _ f k₂ hf').past x (by simp)
    have hclock : f.appClock = f.clock := hc f (by simp [hf'])
    obtain ⟨hlow, -⟩ := hseq
    obtain ⟨h0, hbase⟩ := hd
    rw [hclock] at hlow
    have hle := stamp_le hlow h0 hbase
    have heq : f.clock = a.1.lastActivityAt := le_antisymm hle (hlast.trans hlater)
    rw [heq] at hlow
    exact ⟨stamp_eq hlow hbase, heq⟩

section Schedules

/-- A dish is ordered, cooked and ready, and the guests load their page. -/
def cafePages : Fin 4 → Request
  | 0 => cafeOrder
  | 1 => .setItemStatus cafeStaff 12 .cooking
  | 2 => .setItemStatus cafeStaff 12 .ready
  | 3 => .getSessionSnapshot "ban-1"

/-- The last activity that a snapshot shows. -/
def shownActivity (p : Clients n) (t : Fin n) : Option Timestamp :=
  match (p.threads t).answer with
  | some (.ok (.snapshot session _)) => some session.lastActivityAt
  | _ => none

theorem answer_of_shownActivity {at_ : Timestamp} (h : shownActivity p t = some at_) : ∃ session items,
    (p.threads t).answer = some (.ok (.snapshot session items)) ∧ session.lastActivityAt = at_ := by
  unfold shownActivity at h
  split at h
  next session items ha =>
    cases h
    exact ⟨session, items, ha, rfl⟩
  · cases h

def Event.isPublish (e : Event n) : Bool :=
  match e.stmt with
  | .publish _ _ => true
  | _ => false

theorem Event.isPublish_iff : e.isPublish = true ↔ ∃ channel event, e.stmt = .publish channel event := by
  unfold Event.isPublish
  cases e.stmt <;> simp

def Event.readsItems (e : Event n) : Bool :=
  match e.stmt with
  | .query (.itemsOfSession _) => true
  | _ => false

/-- A dish is cooked a second after its order, and three seconds later it is ready. -/
theorem discarded_contained_cafe : ∃ p, cafe.Reaches cafePages p ∧ ∃ session items f channel event,
    (p.threads 3).answer = some (.ok (.snapshot session items)) ∧ f ∈ p.state.history ∧ f.client = 1 ∧
    f.stmt = .publish channel event ∧ f.Stamps 2000000000 ∧ Discards session 2000000000 ∧
    ∃ (hb : List (Event 4)) (r : Event 4), ReadsItems 3 session items r ∧ Contained (fun _ => 1) 1 channel event hb r.before := by
  obtain ⟨p, hr, hc⟩ := cafe.reaches_play cafePages
    (fun p => decide (shownActivity p 3 = some (seconds 5)) &&
      (p.state.history.all fun e => e.appClock == e.clock) &&
      p.state.history.any fun e => e.client == 1 && e.isPublish && e.clock == seconds 2)
    (.tick (seconds 1) (seconds 1) :: steps 0 15 ++ .tick (seconds 2) (seconds 2) :: steps 1 7 ++
      .tick (seconds 5) (seconds 5) :: steps 2 7 ++ .tick (seconds 6) (seconds 6) :: steps 3 4)
    (by decide +kernel)
  simp only [Bool.and_eq_true, decide_eq_true_eq, List.all_eq_true, List.any_eq_true, beq_iff_eq] at hc
  obtain ⟨⟨hshown, hclock⟩, f, hf, ⟨hclient, hpub⟩, hat⟩ := hc
  obtain ⟨channel, event, hq⟩ := Event.isPublish_iff.mp hpub
  obtain ⟨session, items, ha, hlast⟩ := answer_of_shownActivity hshown
  have hstamps : f.Stamps 2000000000 := by
    rw [Event.Stamps, hclock f hf, hat]
    decide
  have hdiscards : Discards session 2000000000 := by
    rw [Discards, hlast]
    decide
  obtain ⟨hb, r, post, -, hread, hcontained⟩ :=
    discarded_contained hr rfl hclock rfl ha hf hq hstamps hdiscards
  refine ⟨p, hr, session, items, f, channel, event, ha, hf, hclient, hq, hstamps, hdiscards, hb, r, hread, ?_⟩
  rcases hcontained with hcontained | ⟨-, heq⟩
  · rwa [hclient] at hcontained
  · rw [hat, hlast] at heq
    exact absurd heq (by decide)

/-- While the clock stands still, the guests load their page and then the dish is cooked. -/
theorem discarded_contained_fails : ¬ ∀ p, cafe.Reaches cafePages p → OneClock p →
    ∀ session items f channel event seq, (p.threads 3).answer = some (.ok (.snapshot session items)) →
      f ∈ p.state.history → f.stmt = .publish channel event → f.Stamps seq → Discards session seq →
      ∃ hb r post, p.state.history = hb ++ r :: post ∧ ReadsItems 3 session items r ∧
        Contained (fun _ => 1) f.client channel event hb r.before := by
  intro h
  obtain ⟨p, hr, hc⟩ := cafe.reaches_play cafePages
    (fun p => decide (shownActivity p 3 = some (seconds 1)) &&
      (p.state.history.all fun e => e.appClock == e.clock) &&
      (p.state.history.any fun e => e.client == 1 && e.isPublish && e.clock == seconds 1) &&
      decide (p.state.history.Pairwise fun e e' => ¬ (e.client = 1 ∧ e'.readsItems = true)))
    (.tick (seconds 1) (seconds 1) :: steps 0 15 ++ steps 3 4 ++ steps 1 7) (by decide +kernel)
  simp only [Bool.and_eq_true, decide_eq_true_eq, List.all_eq_true, List.any_eq_true, beq_iff_eq] at hc
  obtain ⟨⟨⟨hshown, hclock⟩, f, hf, ⟨hclient, hpub⟩, hat⟩, hpairs⟩ := hc
  obtain ⟨channel, event, hq⟩ := Event.isPublish_iff.mp hpub
  obtain ⟨session, items, ha, hlast⟩ := answer_of_shownActivity hshown
  have hstamps : f.Stamps 1000000000 := by
    rw [Event.Stamps, hclock f hf, hat]
    decide
  have hdiscards : Discards session 1000000000 := by
    rw [Discards, hlast]
    decide
  obtain ⟨hb, r, post, hh, hread, l₁, e, l₂, _, rfl, he, -⟩ :=
    h p hr hclock session items f channel event _ ha hf hq hstamps hdiscards
  rw [hh, List.pairwise_append] at hpairs
  refine hpairs.2.2 e (by simp) r List.mem_cons_self ⟨he.trans hclient, ?_⟩
  simp [Event.readsItems, hread.stmt]

end Schedules

end Baseline

end QOrder
