import QOrder.LeavingProofs

/-! Checkout, restore and the sweep: each ends in one commit that changes the status of
the session it reports, or commits nothing. -/

namespace QOrder

open KeyedTable Concurrency

variable {n : Nat} {owner : Uuid → Uuid} {req : Fin n → Request} {d₀ d : Data} {σ : Sys n}
  {t : Fin n} {h : Holding} {l l' : List (Event n)} {α : Type} {e : Event n} {s : TableSession}
  {items : List OrderItem}

/-- `e` commits that the abandoned session `s` is reopened. -/
structure Reopened (owner : Uuid → Uuid) (e : Event n) (s : TableSession) : Prop where
  commit : e.isCommit = true
  ok : e.before.Ok owner
  valid : (Holding.reopening s).Valid owner e.now e.before
  after : e.after = e.before.overlay ((Holding.reopening s).writes e.now e.before)

theorem Reopened.made (he : Reopened owner e s) : e.Made owner (.reopening s) :=
  ⟨he.commit, he.ok, he.valid, trivial, he.after⟩

theorem Reopened.statusChanges (he : Reopened owner e s) :
    e.statusChanges = [(s.id, .abandoned, .opened)] := by
  rw [statusChanges_single he.ok (s.reopen e.now) he.valid.1 rfl (by rw [he.after]; rfl)]
  simp [he.valid.2.1]

/-- The events of a client whose only commit is `e`. -/
def CommitsOnce (l : List (Event n)) (e : Event n) (l' : List (Event n)) : Prop :=
  ∃ l₁ l₂, l' = l₁ ++ e :: l₂ ∧ Quiet l l₁ ∧ commitsOf l₂ = []

theorem CommitsOnce.quiet {l'' : List (Event n)} (hc : CommitsOnce l e l') (hq : Quiet l' l'') :
    CommitsOnce l e l'' := by
  obtain ⟨l₁, l₂, rfl, hq₁, hl₂⟩ := hc
  obtain ⟨m, rfl, hm⟩ := hq
  exact ⟨l₁, l₂ ++ m, by simp, hq₁, by simp [hl₂, hm]⟩

theorem commitsOnce_last (e : Event n) (hq : Quiet l l') : CommitsOnce l e (l' ++ [e]) :=
  ⟨l', [], rfl, hq, rfl⟩

theorem CommitsOnce.commitsOf (hc : CommitsOnce [] e l) (he : e.isCommit = true) :
    commitsOf l = [e] := by
  obtain ⟨l₁, l₂, rfl, hq, hl₂⟩ := hc
  simp [he, hl₂, hq.commitsOf]

/-- What a checkout reports about its commit: the unserved items are those its `SELECT` has met. -/
structure Reports (owner : Uuid → Uuid) (l : List (Event n)) (e : Event n) (s : TableSession)
    (autoCancelledItems : List CancelledItemSummary) (totalAmount : Money) : Prop where
  left : ∃ items, Left owner e s items .close ∧ totalAmount = servedTotal items ∧
    ∃ l₁ l₂ listed late, l = l₁ ++ e :: l₂ ∧ ItemsMet (Stmt.listsItems s.id) s.id listed l₁ ∧
      items = listed ++ late ∧ (∀ i ∈ late, i.status = .pending) ∧
      autoCancelledItems = (listed.filter OrderItem.isUnserved).map OrderItem.summary

theorem Reports.quiet {autoCancelledItems : List CancelledItemSummary} {totalAmount : Money}
    (h : Reports owner l e s autoCancelledItems totalAmount) (hq : Quiet l l') :
    Reports owner l' e s autoCancelledItems totalAmount := by
  obtain ⟨m, rfl, -⟩ := hq
  obtain ⟨items, hleft, htotal, l₁, l₂, listed, late, rfl, h⟩ := h
  exact ⟨items, hleft, htotal, l₁, l₂ ++ m, listed, late, by simp, h⟩

/-- The message about a closed session, as far as the answer shows it. -/
def closedEvent (session : TableSession) (totalAmount : Money) : RealtimeEvent :=
  .sessionClosed session.id session.tableId totalAmount session.closedAt

def CheckoutPost (owner : Uuid → Uuid) (req : Request) (sessionId restaurantId : Uuid)
    (l : List (Event n)) (r : Except Exn (Option SessionService.CheckoutResult)) (h' : Holding) (l' : List (Event n)) :
    Prop :=
  h' = .nothing ∧
    match r with
    | .ok none => Quiet l l'
    | .ok (some result) => Tells owner req l' restaurantId sessionId
        (closedEvent result.session result.totalAmount) ∧
      ∃ e s, CommitsOnce l e l' ∧ s.id = sessionId ∧ s.status = .opened ∧
        Reports owner l' e s result.autoCancelledItems result.totalAmount
    | .error e => Quiet l l' ∧ ∃ e', e = .db e'

def missingAbandonedAt : String := "Phiên thiếu thời điểm abandoned_at."

/-- The exceptions of `restore`: its messages are for the user, save one. -/
def RestoreError (e : Exn) : Prop :=
  (∃ e', e = .db e') ∨ ∃ message, e = .valueError message ∧ message ≠ missingAbandonedAt

/-- The message that `restore_session` publishes about its result. -/
def restoreEvent (result : SessionService.RestoreResult) : RealtimeEvent :=
  match result.action with
  | .restored => .sessionRestored result.session.id result.session.tableId
  | .checkedOut => closedEvent result.session (result.totalAmount.getD 0)

def RestorePost (owner : Uuid → Uuid) (req : Request) (sessionId restaurantId : Uuid)
    (l : List (Event n)) (r : Except Exn (Option SessionService.RestoreResult)) (h' : Holding) (l' : List (Event n)) :
    Prop :=
  h' = .nothing ∧
    match r with
    | .ok none => Quiet l l'
    | .ok (some result) => Tells owner req l' restaurantId sessionId (restoreEvent result) ∧
      ∃ e s, CommitsOnce l e l' ∧ s.id = sessionId ∧
        match result.action with
        | .restored => Reopened owner e s
        | .checkedOut => s.status = .abandoned ∧ ∃ totalAmount, result.totalAmount = some totalAmount ∧
          Reports owner l' e s result.autoCancelledItems totalAmount
    | .error e => Quiet l l' ∧ RestoreError e

theorem RestorePost.extend {q : Request} {sessionId restaurantId : Uuid}
    {r : Except Exn (Option SessionService.RestoreResult)} {l'' : List (Event n)}
    (hp : RestorePost owner q sessionId restaurantId l' r h l'') (hq : Quiet l l') :
    RestorePost owner q sessionId restaurantId l r h l'' := by
  obtain ⟨hh, hp⟩ := hp
  refine ⟨hh, ?_⟩
  match r with
  | .ok none => exact hq.trans hp
  | .ok (some result) =>
    obtain ⟨ht, e, s, ⟨l₁, l₂, rfl, hq', hl₂⟩, hp⟩ := hp
    exact ⟨ht, e, s, ⟨l₁, l₂, rfl, hq.trans hq', hl₂⟩, hp⟩
  | .error e => exact ⟨hq.trans hp.1, hp.2⟩

theorem empty_overlay (w : Data) : Data.overlay {} w = w := by simp [Data.overlay]

/-- The client has read the sessions it has loaded. -/
def Loaded (loaded : List TableSession) (l : List (Event n)) : Prop :=
  ∀ r ∈ loaded, ∃ e ∈ l, lookup r.id e.after.sessions = some r

theorem Loaded.append {loaded : List TableSession} (hl : Loaded loaded l) (l' : List (Event n)) :
    Loaded loaded (l ++ l') := by
  intro r hr
  obtain ⟨e, he, h⟩ := hl r hr
  exact ⟨e, List.mem_append_left _ he, h⟩

theorem Loaded.tableId {loaded : List TableSession} (hl : Loaded loaded l) (hi : Inv owner req d₀ σ)
    (ha : At owner t h l σ) (hs : lookup s.id σ.data.sessions = some s) :
    ∀ r ∈ loaded, r.id = s.id → r.tableId = s.tableId := by
  intro r hr hk
  obtain ⟨e, he, hr⟩ := hl r hr
  obtain ⟨s', hs', ht, -⟩ := (hi.own_grows ha he).session hr
  rw [hk, hs] at hs'
  cases hs'
  exact ht.symm

namespace Triple

variable {post : Except Exn α → Holding → List (Event n) → Prop}

/-- A compare-and-swap on one session, from no holding. -/
theorem casSession {c : Command} {k : Uuid} {p : TableSession → Bool}
    {g : Timestamp → TableSession → TableSession} {f : Data → Action α}
    (hrows : ∀ ctx d, c.rows ctx d = { sessions := changed p (g ctx.now) d.sessions })
    (hp : ∀ s, p s = true → s.id = k) (hpre : Allowed owner (req t) l .nothing (.command c))
    (hnone : ∀ e : Event n, Plain e →
      Triple owner req d₀ t .nothing (l ++ [e]) (f {}) post)
    (hsome : ∀ σ s, Inv owner req d₀ σ → At owner t .nothing l σ →
      c.violation (σ.ctx t) σ.data = none → lookup k σ.data.sessions = some s → p s = true →
      ∃ h' : Holding, h'.writes (σ.now t) σ.data = { sessions := [g (σ.now t) s] } ∧
        h'.Valid owner (σ.now t) σ.data ∧
        ∀ e : Event n, Plain e → e.locks (g (σ.now t) s).id = true →
          Triple owner req d₀ t h' (l ++ [e]) (f { sessions := [g (σ.now t) s] }) post)
    (herr : ∀ e e', Plain e' → post (.error (.db e)) .nothing (l ++ [e'])) :
    Triple owner req d₀ t .nothing l (Action.command c >>= f) post := by
  refine command hpre (fun σ hi ha _ hv => ?_) fun σ e hi ha => herr e _ ⟨rfl, rfl⟩
  rw [ha.view_nothing] at hv
  have hr : σ.rows t c = { sessions := changed p (g (σ.now t)) σ.data.sessions } := by
    rw [ha.rows_nothing, hrows]
    rfl
  have hpk : ∀ s, p s = true → key s = k := hp
  rw [hr]
  rcases changed_cases hpk hi.ok.sessionIds (f := g (σ.now t)) with he | ⟨s, hs, hps, he⟩
  · rw [he]
    exact ⟨.nothing, (empty_overlay _).symm, trivial, hnone _ ⟨rfl, rfl⟩⟩
  · rw [he]
    obtain ⟨h', hw, hv', hk⟩ := hsome σ s hi ha hv hs hps
    exact ⟨h', by rw [hw, Holding.writes_nothing, empty_overlay], hv', hk _ ⟨rfl, rfl⟩ (by simp [Event.locks, Event.wrote, Sys.event, lookup_singleton])⟩

theorem checkout {sessionId restaurantId : Uuid} {loaded : List TableSession} {user : TokenPayload}
    (hreq : req t = .checkoutSession user sessionId) (hr : restaurantId = user.restaurantId)
    (hl : commitsOf l = []) (hload : Loaded loaded l) :
    Triple owner req d₀ t .nothing l (SessionService.checkout sessionId restaurantId loaded)
      (CheckoutPost owner (req t) sessionId restaurantId l) := by
  have hq {e : Event n} (he : e.isCommit = false) : Quiet l (l ++ [e]) := (Quiet.refl l).snoc he
  unfold SessionService.checkout
  refine casSession (k := sessionId)
    (p := fun s => s.matchesId sessionId restaurantId .opened) (g := fun now s => s.close now)
    (fun _ _ => rfl) (by simp +contextual [TableSession.matchesId]) rfl
    (fun e he => .ret ⟨rfl, hq he.1⟩) (fun σ s hi ha _ hs hp => ?_) fun e e' he => ⟨rfl, hq he.1, e, rfl⟩
  have hk : s.id = sessionId := key_of_lookup hs
  subst hk
  simp only [TableSession.matchesId, Bool.and_eq_true, beq_iff_eq] at hp
  obtain ⟨⟨-, rfl⟩, ho⟩ := hp
  refine ⟨.leaving s (σ.data.itemsOf s.id) .close .marked, by simp [Holding.writes, Leave.row],
    ⟨hs, .inl ho, .refl _ _⟩, fun e he hlock => ?_⟩
  refine settle (fun l' hq' => ?_) (.last hlock) (hload.tableId hi ha hs)
    (fun result l₁ e' l₂ listed items hq' hl₂ hleft hreported htotal ht => ?_)
    fun e' l' hq' => ⟨rfl, (hq he.1).trans hq', e', rfl⟩
  · rw [hreq]
    exact ⟨((hq he.1).trans hq').commitsOf.trans hl, rfl, rfl, hr, ho⟩
  · obtain ⟨late, hlate, hpending⟩ := hreported.later
    exact .ret ⟨rfl, ht, e', s, ⟨l₁, l₂, rfl, (hq he.1).trans hq', hl₂⟩, rfl, ho,
      ⟨_, hleft, htotal, l₁, l₂, listed, late, rfl, hreported.met, hlate, hpending, hreported.summaries⟩⟩

/-- `reopenSession` violates the index unless the table has no open session. -/
theorem reopen_noOpen {ctx : Ctx} (hs : lookup s.id d.sessions = some s) (ha : s.status = .abandoned)
    (hd : d.Ok owner)
    (hv : (Command.reopenSession s.id s.restaurantId).violation ctx d = none) : d.NoOpen s.tableId := by
  intro r hr ht ho
  have hentry : (s.tableId, s.id) ∈
      (Command.reopenSession s.id s.restaurantId).indexEntries ctx d := by
    have hm : s.reopen ctx.now ∈ ((Command.reopenSession s.id s.restaurantId).rows ctx d).sessions :=
      mem_changed.mpr ⟨s, mem_of_lookup hs, by simp [TableSession.matchesId, ha], rfl⟩
    exact List.mem_map.mpr ⟨_, hm, rfl⟩
  have hid := Command.index_free hv hentry hr ht ho
  have he := eq_of_key_eq hd.sessionIds hr (mem_of_lookup hs) hid
  rw [he, ha] at ho
  cases ho

theorem restoreAbandoned {tableSession : TableSession} {restaurantId : Uuid} {user : TokenPayload}
    (hreq : req t = .restoreSession user tableSession.id) (hr : restaurantId = user.restaurantId)
    (hres : Restorable tableSession.id l) (hload : Loaded [tableSession] l) :
    Triple owner req d₀ t .nothing l
      (SessionService.restoreAbandoned tableSession restaurantId >>= fun r => pure (some r))
      (RestorePost owner (req t) tableSession.id restaurantId l) := by
  have hq {e : Event n} (he : e.isCommit = false) : Quiet l (l ++ [e]) := (Quiet.refl l).snoc he
  have hres' {l' : List (Event n)} (hq : Quiet l l') : Restorable tableSession.id l' := by
    obtain ⟨m, rfl, hm⟩ := hq
    exact hres.append hm
  simp only [SessionService.restoreAbandoned, bind_assoc]
  refine findOpenSession (fun e₀ he₀ _ => ?_) fun e₀ s₀ he₀ _ _ _ _ => ?_
  · simp only [SessionService.restoreToOpen, bind_assoc]
    refine casSession (k := tableSession.id)
      (p := fun s => s.matchesId tableSession.id restaurantId .abandoned)
      (g := fun now s => s.reopen now) (fun _ _ => rfl) (by simp +contextual [TableSession.matchesId])
      rfl (fun e he => .raise ⟨rfl, (hq he₀).snoc he.1, .inr ⟨_, rfl, by simp [missingAbandonedAt]⟩⟩)
      (fun σ s hi ha hv hs hp => ?_)
      fun e e' he => ⟨rfl, (hq he₀).snoc he.1, .inl ⟨e, rfl⟩⟩
    have hk : s.id = tableSession.id := key_of_lookup hs
    simp only [TableSession.matchesId, Bool.and_eq_true, beq_iff_eq] at hp
    obtain ⟨⟨-, rfl⟩, ho⟩ := hp
    rw [← hk] at hs hv
    refine ⟨.reopening s, rfl, ⟨hs, ho, reopen_noOpen hs ho hi.ok hv⟩, fun e he _ => ?_⟩
    simp only [List.head?_cons, bind_assoc]
    have hj {l' : List (Event n)} (hq' : Quiet l l') : Justified l' (.reopening s) (req t) := by
      rw [hreq]
      exact ⟨hk ▸ hres' hq', hk, hr⟩
    refine commit trivial (hj ((hq he₀).snoc he.1)) fun σ₁ hi₁ ha₁ => ?_
    rw [← hk]
    refine readBack ⟨_, List.mem_append_right _ List.mem_cons_self, ?_⟩ ?_ fun row e' he' hid ht => ?_
    · simp [Sys.event, Holding.writes, lookup_singleton]
    · exact (hload.append [e₀]).tableId hi ha hs
    · have honce := (commitsOnce_last (σ₁.event t .commit (.ok ()) (σ₁.data.overlay
        ((Holding.reopening s).writes (σ₁.now t) σ₁.data))) ((hq he₀).snoc he.1)).quiet
          ((Quiet.refl _).snoc he')
      have hre : Reopened owner (σ₁.event t .commit (.ok ()) (σ₁.data.overlay
          ((Holding.reopening s).writes (σ₁.now t) σ₁.data))) s := ⟨rfl, hi₁.ok, ha₁.valid, rfl⟩
      refine .ret ⟨rfl, fun channel hof => ?_, _, s, honce, rfl, hre⟩
      refine Told.append ⟨_, _, [], .reopening s, rfl, hj ((hq he₀).snoc he.1), hre.made, hof, ?_⟩ [e']
      rw [← hid, ← ht]
      rfl
  · simp only [SessionService.directCheckout, bind_assoc]
    refine casSession (k := tableSession.id)
      (p := fun s => s.matchesId tableSession.id restaurantId .abandoned)
      (g := fun now s => s.close now) (fun _ _ => rfl) (by simp +contextual [TableSession.matchesId])
      rfl (fun e he => .raise ⟨rfl, (hq he₀).snoc he.1, .inr ⟨_, rfl, by simp [missingAbandonedAt]⟩⟩)
      (fun σ s hi ha hv hs hp => ?_)
      fun e e' he => ⟨rfl, (hq he₀).snoc he.1, .inl ⟨e, rfl⟩⟩
    have hk : s.id = tableSession.id := key_of_lookup hs
    simp only [TableSession.matchesId, Bool.and_eq_true, beq_iff_eq] at hp
    obtain ⟨⟨-, rfl⟩, ho⟩ := hp
    rw [← hk] at hs
    refine ⟨.leaving s (σ.data.itemsOf s.id) .close .marked, by simp [Holding.writes, Leave.row],
      ⟨hs, .inr ⟨ho, rfl⟩, .refl _ _⟩, fun e he hlock => ?_⟩
    rw [← hk]
    simp only [List.head?_cons, bind_assoc]
    have hq₂ := (hq he₀).snoc he.1
    refine settle (fun l' hq' => ?_) (.last hlock) ((hload.append [e₀]).tableId hi ha hs)
      (fun result l₁ e' l₂ listed items hq' hl₂ hleft hreported htotal ht => ?_)
      fun e' l' hq' => ⟨rfl, hq₂.trans hq', .inl ⟨e', rfl⟩⟩
    · rw [hreq]
      exact ⟨hk ▸ hres' (hq₂.trans hq'), rfl, hk, hr, ho⟩
    · obtain ⟨late, hlate, hpending⟩ := hreported.later
      exact .ret ⟨rfl, ht, e', s, ⟨l₁, l₂, rfl, hq₂.trans hq', hl₂⟩, rfl, ho, _, rfl,
        ⟨_, hleft, htotal, l₁, l₂, listed, late, rfl, hreported.met, hlate, hpending, hreported.summaries⟩⟩

theorem restore {sessionId restaurantId : Uuid} {user : TokenPayload}
    (hreq : req t = .restoreSession user sessionId) (hr : restaurantId = user.restaurantId)
    (hl : commitsOf l = []) :
    Triple owner req d₀ t .nothing l (SessionService.restore sessionId restaurantId)
      (RestorePost owner (req t) sessionId restaurantId l) := by
  unfold SessionService.restore
  refine query fun σ hi ha => ⟨_, ha, ?_⟩
  rw [ha.view_nothing, Query.eval]
  have hq (r) : Quiet l (l ++ [σ.event t (.query (.sessionOf sessionId restaurantId)) r σ.data]) :=
    (Quiet.refl l).snoc rfl
  cases hs : lookup sessionId σ.data.sessions with
  | none => exact .ret ⟨rfl, hq _⟩
  | some s =>
    have hk : s.id = sessionId := key_of_lookup hs
    subst hk
    by_cases hrid : s.restaurantId = restaurantId
    · simp only [Option.filter_some, hrid, beq_self_eq_true, if_true]
      split
      · exact .raise ⟨rfl, hq _, .inr ⟨_, rfl, by simp [missingAbandonedAt]⟩⟩
      · rename_i hst
        have hst : s.status = .abandoned := by simpa using hst
        have hc := hi.ok.sessionColumns s (mem_of_lookup hs)
        simp only [TableSession.Columns, hst] at hc
        obtain ⟨abandonedAt, hab⟩ := Option.isSome_iff_exists.mp hc.1
        simp only [hab]
        refine appNow fun σ₁ hi₁ ha₁ => ?_
        split
        · exact .raise ⟨rfl, (hq _).snoc rfl, .inr ⟨_, rfl, by
            simp [missingAbandonedAt, SessionService.expiredMessage]⟩⟩
        · rename_i hle
          refine (restoreAbandoned hreq hr ?_ ?_).mono fun r h' l' hp => ?_
          · refine ⟨by simp [hl], _, List.mem_append_left _ (List.mem_append_right _ List.mem_cons_self),
              s, abandonedAt, hs, hst, hab, σ₁.appClock,
              ⟨_, List.mem_append_right _ List.mem_cons_self, rfl, rfl⟩, not_lt.mp hle⟩
          · intro r hrm
            obtain rfl := List.mem_singleton.mp hrm
            exact ⟨_, List.mem_append_left _ (List.mem_append_right _ List.mem_cons_self), hs⟩
          · exact hp.extend ((hq _).snoc rfl)
    · simp only [Option.filter_some, beq_eq_false_iff_ne.mpr hrid]
      exact .ret ⟨rfl, hq _⟩

end Triple

end QOrder
