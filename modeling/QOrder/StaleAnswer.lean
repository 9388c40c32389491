import QOrder.Watch
import QOrder.SessionLifecycle

/-! The session a checkout or a restore answers with. The service reads the row again
after its commit, but the select returns the instance loaded before the update. -/

namespace QOrder

open KeyedTable Concurrency

variable {n : Nat} {owner : Uuid → Uuid} {req : Fin n → Request} {D : Deployment owner} {d₀ : Data}
  {p : Clients n} {t : Fin n} {l l' : List (Event n)} {e : Event n} {α : Type}

/-- The `closed_at` of the `session.closed` messages the client has published. -/
def publishedClosedAt (l : List (Event n)) : List (Option Timestamp) :=
  l.filterMap fun e =>
    match e.stmt with
    | .publish _ (.sessionClosed _ _ _ closedAt) => some closedAt
    | _ => none

def Response.shown : Response → Option TableSession
  | checkout result => some result.session
  | restore result => some result.session
  | _ => none

/-- The columns a response shows of a session besides those that never change. -/
structure TableSession.Agrees (s row : TableSession) : Prop where
  status : s.status = row.status
  closedAt : s.closedAt = row.closedAt
  abandonedAt : s.abandonedAt = row.abandonedAt
  totalAmount : s.totalAmount = row.totalAmount
  lastActivityAt : s.lastActivityAt = row.lastActivityAt

/-- The answer of a client shows the row its only commit has left, and so do its messages. -/
def Refreshed (k : Uuid) (session : TableSession) (l : List (Event n)) : Prop :=
  ∀ e row, commitsOf l = [e] → lookup k e.after.sessions = some row →
    session.Agrees row ∧ ∀ closedAt ∈ publishedClosedAt l, closedAt = row.closedAt

/-- `l'` extends `l` by events that say nothing about a closed session. -/
def Silent (l l' : List (Event n)) : Prop := ∃ m, l' = l ++ m ∧ publishedClosedAt m = []

theorem Silent.refl (l : List (Event n)) : Silent l l := ⟨[], by simp, rfl⟩

theorem Silent.snoc (h : Silent l l') (he : publishedClosedAt [e] = []) : Silent l (l' ++ [e]) := by
  obtain ⟨m, rfl, hm⟩ := h
  refine ⟨m ++ [e], by simp, ?_⟩
  rw [publishedClosedAt, List.filterMap_append]
  exact List.append_eq_nil_iff.mpr ⟨hm, he⟩

theorem Silent.trans {l'' : List (Event n)} (h : Silent l l') (h' : Silent l' l'') : Silent l l'' := by
  obtain ⟨m, rfl, hm⟩ := h
  obtain ⟨m', rfl, hm'⟩ := h'
  refine ⟨m ++ m', by simp, ?_⟩
  rw [publishedClosedAt, List.filterMap_append]
  exact List.append_eq_nil_iff.mpr ⟨hm, hm'⟩

theorem loadedInstance_self {s row : TableSession} (h : row.id = s.id) :
    loadedInstance [s] row = s := by
  simp [loadedInstance, h, lookup_singleton]

namespace Watch

/-- The result of a service that has loaded `s` shows `s`. -/
def ShowsLoaded (session : α → TableSession) (s : TableSession) (l : List (Event n))
    (r : Except Exn α) (l' : List (Event n)) : Prop :=
  ∀ a, r = .ok a → session a = s ∧ Silent l l'

theorem ShowsLoaded.error {session : α → TableSession} {s : TableSession} (e : Exn) :
    ShowsLoaded session s l (.error e) l' := by
  intro a h
  cases h

theorem readBack {s : TableSession} :
    Watch owner req d₀ t anyEvent anywhere (SessionService.readBack s.id [s]) (ShowsLoaded id s l) l := by
  unfold SessionService.readBack
  refine query trivial fun σ _ _ _ _ => ?_
  rw [Query.eval]
  cases hrow : lookup s.id (σ.view t).sessions with
  | none => exact .error _
  | some row =>
    rintro a ⟨⟩
    exact ⟨loadedInstance_self (key_of_lookup hrow), (Silent.refl l).snoc rfl⟩

theorem dismissPending {k restaurantId : Uuid} {f : Nat → Action α}
    {post : Except Exn α → List (Event n) → Prop}
    (hok : ∀ k l', Silent l l' → Watch owner req d₀ t anyEvent anywhere (f k) post l')
    (herr : ∀ e l', post (.error e) l') :
    Watch owner req d₀ t anyEvent anywhere (StaffCallService.dismissPending k restaurantId >>= f) post l := by
  simp only [StaffCallService.dismissPending, bind_assoc]
  refine command trivial (fun σ _ _ _ _ _ => ?_) fun σ e _ _ _ _ _ => herr _ _
  exact hok _ _ ((Silent.refl l).snoc rfl)

theorem cancelIfAny {k : Uuid} {items : List CancelledItemSummary} {f : Unit → Action α}
    {post : Except Exn α → List (Event n) → Prop}
    (hok : ∀ l', Silent l l' → Watch owner req d₀ t anyEvent anywhere (f ()) post l')
    (herr : ∀ e l', post (.error e) l') :
    Watch owner req d₀ t anyEvent anywhere (SessionService.cancelIfAny k items >>= f) post l := by
  unfold SessionService.cancelIfAny
  split
  · exact hok l (.refl l)
  · simp only [bind_assoc]
    refine command trivial (fun σ _ _ _ _ _ => ?_) fun σ e _ _ _ _ _ => herr _ _
    exact hok _ ((Silent.refl l).snoc rfl)

theorem settle {s : TableSession} {restaurantId : Uuid} :
    Watch owner req d₀ t anyEvent anywhere (SessionService.settle s.id restaurantId [s])
      (ShowsLoaded SessionService.CheckoutResult.session s l) l := by
  unfold SessionService.settle
  refine query trivial fun σ _ _ _ _ => ?_
  refine cancelIfAny (fun l₁ h₁ => ?_) fun e l' => .error e
  refine query trivial fun σ _ _ _ _ => ?_
  refine command trivial (fun σ _ _ _ _ _ => ?_) fun σ e _ _ _ _ _ => .error _
  refine dismissPending (fun k l₂ h₂ => ?_) fun e l' => .error e
  refine commit trivial fun σ _ _ _ _ => ?_
  refine Along.bind readBack (fun session l' hp => ?_) fun e l' _ => .error e
  obtain ⟨hs, hl'⟩ := hp session rfl
  rintro a ⟨⟩
  refine ⟨hs, Silent.trans ?_ hl'⟩
  have hfirst : Silent l l₁ := Silent.trans ((Silent.refl l).snoc rfl) h₁
  have hsecond : Silent l l₂ := Silent.trans ((hfirst.snoc rfl).snoc rfl) h₂
  exact hsecond.snoc rfl

theorem checkout {s : TableSession} {restaurantId : Uuid} :
    Watch owner req d₀ t anyEvent anywhere (SessionService.checkout s.id restaurantId [s])
      (fun r l' => ∀ result, r = .ok (some result) → result.session = s ∧ Silent l l') l := by
  unfold SessionService.checkout
  refine command trivial (fun σ _ _ _ _ _ => ?_) fun σ e _ _ _ _ _ _ h => by cases h
  split
  · rintro result ⟨⟩
  · refine Along.bind settle (fun result l' hp => ?_) fun e l' _ _ h => by cases h
    obtain ⟨hs, hl'⟩ := hp result rfl
    rintro a ⟨⟩
    exact ⟨hs, ((Silent.refl l).snoc rfl).trans hl'⟩

theorem restoreToOpen {s : TableSession} {restaurantId : Uuid} :
    Watch owner req d₀ t anyEvent anywhere (SessionService.restoreToOpen s restaurantId)
      (ShowsLoaded SessionService.RestoreResult.session s l) l := by
  unfold SessionService.restoreToOpen
  refine command trivial (fun σ _ _ _ _ _ => ?_) fun σ e _ _ _ _ _ => .error _
  split
  · exact .error _
  · refine commit trivial fun σ _ _ _ _ => ?_
    refine Along.bind readBack (fun session l' hp => ?_) fun e l' _ => .error e
    obtain ⟨hs, hl'⟩ := hp session rfl
    rintro a ⟨⟩
    exact ⟨hs, (((Silent.refl l).snoc rfl).snoc rfl).trans hl'⟩

theorem directCheckout {s : TableSession} {restaurantId : Uuid} :
    Watch owner req d₀ t anyEvent anywhere (SessionService.directCheckout s restaurantId)
      (ShowsLoaded SessionService.RestoreResult.session s l) l := by
  unfold SessionService.directCheckout
  refine command trivial (fun σ _ _ _ _ _ => ?_) fun σ e _ _ _ _ _ => .error _
  split
  · exact .error _
  · refine Along.bind settle (fun result l' hp => ?_) fun e l' _ => .error e
    obtain ⟨hs, hl'⟩ := hp result rfl
    rintro a ⟨⟩
    exact ⟨hs, ((Silent.refl l).snoc rfl).trans hl'⟩

theorem findOpenSession {tableId : Uuid} {loaded : List TableSession}
    {f : Option TableSession → Action α} {post : Except Exn α → List (Event n) → Prop}
    (hok : ∀ found l', Silent l l' → Watch owner req d₀ t anyEvent anywhere (f found) post l')
    (herr : ∀ e l', post (.error e) l') :
    Watch owner req d₀ t anyEvent anywhere (QOrder.findOpenSession tableId loaded >>= f) post l := by
  simp only [QOrder.findOpenSession, bind_assoc]
  refine query trivial fun σ _ _ _ _ => ?_
  cases (Query.openSessions tableId).eval (σ.ctx t) σ.catalog (σ.view t) with
  | nil => exact hok _ _ ((Silent.refl l).snoc rfl)
  | cons s rows =>
    cases rows with
    | nil => exact hok _ _ ((Silent.refl l).snoc rfl)
    | cons s' rows => exact herr _ _

/-- The first event of the client has read the session as `s`. -/
def Loaded (k : Uuid) (s : TableSession) (l : List (Event n)) : Prop :=
  ∃ e m, l = e :: m ∧ e.isCommit = false ∧ lookup k e.before.sessions = some s

theorem Loaded.silent {k : Uuid} {s : TableSession} (h : Loaded k s l) (hl : Silent l l') :
    Loaded k s l' := by
  obtain ⟨e, m, rfl, he⟩ := h
  obtain ⟨m', rfl, -⟩ := hl
  exact ⟨e, m ++ m', rfl, he⟩

theorem sessionOf {k restaurantId : Uuid} {f : Option TableSession → Action α}
    {post : Except Exn α → List (Event n) → Prop}
    (hnone : ∀ l', Watch owner req d₀ t anyEvent anywhere (f none) post l')
    (hsome : ∀ (e : Event n) s, publishedClosedAt [e] = [] → Loaded k s [e] → s.id = k →
      Watch owner req d₀ t anyEvent anywhere (f (some s)) post [e]) :
    Watch owner req d₀ t anyEvent anywhere (Action.query (.sessionOf k restaurantId) >>= f) post [] := by
  refine query trivial fun σ _ ht hl _ => ?_
  have hview : σ.view t = σ.data := ht.view (hl ▸ Idle.nil)
  rw [hview, Query.eval]
  cases hs : (lookup k σ.data.sessions).filter fun s => s.restaurantId == restaurantId with
  | none => exact hnone _
  | some s =>
    have hlook : lookup k σ.data.sessions = some s := (Option.filter_eq_some_iff.mp hs).1
    exact hsome _ s rfl ⟨_, [], rfl, rfl, hlook⟩ (key_of_lookup hlook)

theorem publishClosed {restaurantId k : Uuid} {session : TableSession} {totalAmount : Money}
    {f : Unit → Action α} {post : Except Exn α → List (Event n) → Prop}
    (hok : ∀ m, publishedClosedAt m = [session.closedAt, session.closedAt] →
      Watch owner req d₀ t anyEvent anywhere (f ()) post (l ++ m)) :
    Watch owner req d₀ t anyEvent anywhere
      (StaffTables.publishClosed restaurantId k session totalAmount >>= f) post l := by
  simp only [StaffTables.publishClosed, bind_assoc]
  refine publish trivial fun σ _ _ _ _ => publish trivial fun σ' _ _ _ _ => ?_
  rw [List.append_assoc]
  exact hok _ rfl

/-- What a successful answer about the session `k` shows and has published. -/
def ShowsStale (k : Uuid) (r : Except Exn Response) (l : List (Event n)) : Prop :=
  ∀ a, r = .ok a → ∃ s, a.shown = some s ∧ Loaded k s l ∧
    match a with
    | .restore result => s.status = .abandoned ∧
      publishedClosedAt l = if result.action = .restored then [] else [s.closedAt, s.closedAt]
    | _ => publishedClosedAt l = [s.closedAt, s.closedAt]

theorem ShowsStale.error {k : Uuid} (e : Exn) : ShowsStale k (.error e) l := by
  intro a h
  cases h

theorem checkoutSession {user : TokenPayload} {k : Uuid} :
    Watch owner req d₀ t anyEvent anywhere (Request.checkoutSession user k).handler (ShowsStale k) [] := by
  have hend : Watch owner req d₀ t anyEvent anywhere (StaffTables.checkoutSession user k)
      (fun r l => ∀ result, r = .ok result → Loaded k result.session l ∧
        publishedClosedAt l = [result.session.closedAt, result.session.closedAt]) [] := by
    unfold StaffTables.checkoutSession
    refine sessionOf (fun l' _ h => by cases h) fun e s he hload hk => ?_
    subst hk
    refine Along.bind checkout (fun res l' hp => ?_) fun e l' _ _ h => by cases h
    cases res with
    | none => exact fun _ h => by cases h
    | some result =>
      obtain ⟨hs, m', rfl, hm'⟩ := hp result rfl
      refine publishClosed fun m hm => ?_
      rintro a ⟨⟩
      obtain ⟨e', m₀, h₀, hc⟩ := hload
      refine ⟨⟨e', m₀ ++ m' ++ m, by rw [h₀]; simp, hs ▸ hc⟩, ?_⟩
      simp only [publishedClosedAt, List.filterMap_append] at he hm hm' ⊢
      rw [he, hm', hm]
      rfl
  refine Along.bind hend (fun result l' hp => ?_) fun e l' _ => .error e
  obtain ⟨hload, hpub⟩ := hp result rfl
  rintro a ⟨⟩
  exact ⟨result.session, rfl, hload, hpub⟩

theorem restoreAbandoned {s : TableSession} {restaurantId : Uuid} :
    Watch owner req d₀ t anyEvent anywhere (SessionService.restoreAbandoned s restaurantId)
      (ShowsLoaded SessionService.RestoreResult.session s l) l := by
  unfold SessionService.restoreAbandoned
  refine findOpenSession (fun found l' hl' => ?_) fun e l' => .error e
  have extend {r : Except Exn SessionService.RestoreResult} {l'' : List (Event n)}
      (hp : ShowsLoaded SessionService.RestoreResult.session s l' r l'') :
      ShowsLoaded SessionService.RestoreResult.session s l r l'' := by
    intro a ha
    obtain ⟨hs, hl''⟩ := hp a ha
    exact ⟨hs, hl'.trans hl''⟩
  cases found with
  | none => exact restoreToOpen.mono fun r l'' hp => extend hp
  | some existing => exact directCheckout.mono fun r l'' hp => extend hp

theorem restore {k restaurantId : Uuid} :
    Watch owner req d₀ t anyEvent anywhere (SessionService.restore k restaurantId)
      (fun r l => ∀ result, r = .ok (some result) → Loaded k result.session l ∧
        result.session.status = .abandoned ∧ publishedClosedAt l = []) [] := by
  unfold SessionService.restore
  refine sessionOf (fun l' _ h => by cases h) fun e s he hload hk => ?_
  subst hk
  dsimp only
  split
  · exact fun _ h => by cases h
  next hst =>
    have hst : s.status = .abandoned := by simpa using hst
    cases s.abandonedAt with
    | none => exact fun _ h => by cases h
    | some abandonedAt =>
      refine appNow trivial fun σ _ _ _ _ => ?_
      split
      · exact fun _ h => by cases h
      · refine Along.bind restoreAbandoned (fun result l' hp => ?_) fun e l' _ _ h => by cases h
        obtain ⟨hs, hl'⟩ := hp result rfl
        rintro a ⟨⟩
        have hsilent : Silent [e] l' := Silent.trans ((Silent.refl [e]).snoc rfl) hl'
        refine ⟨hs ▸ hload.silent hsilent, hs ▸ hst, ?_⟩
        obtain ⟨m, rfl, hm⟩ := hsilent
        simp only [publishedClosedAt, List.filterMap_append] at he hm ⊢
        rw [he, hm]
        rfl

theorem restoreSession {user : TokenPayload} {k : Uuid} :
    Watch owner req d₀ t anyEvent anywhere (Request.restoreSession user k).handler (ShowsStale k) [] := by
  have hend : Watch owner req d₀ t anyEvent anywhere (StaffTables.restoreSession user k)
      (fun r l => ∀ result, r = .ok result → Loaded k result.session l ∧
        result.session.status = .abandoned ∧ publishedClosedAt l = if result.action = .restored
          then [] else [result.session.closedAt, result.session.closedAt]) [] := by
    unfold StaffTables.restoreSession
    have hrestore : Watch owner req d₀ t anyEvent anywhere
        (QOrder.translate (valueErrorToHttp 400) (SessionService.restore k user.restaurantId))
        (fun r l => ∀ result, r = .ok (some result) → Loaded k result.session l ∧
          result.session.status = .abandoned ∧ publishedClosedAt l = []) [] :=
      restore.translate (fun a l' hp => hp) fun e l' _ _ h => by cases h
    refine Along.bind hrestore (fun res l' hp => ?_) fun e l' _ _ h => by cases h
    cases res with
    | none => exact fun _ h => by cases h
    | some result =>
      obtain ⟨hload, hst, hpub⟩ := hp result rfl
      simp only [StaffTables.publishRestored]
      cases haction : result.action with
      | restored =>
        simp only [bind_assoc]
        refine publish trivial fun σ _ _ _ _ => publish trivial fun σ' _ _ _ _ => ?_
        rintro a ⟨⟩
        refine ⟨hload.silent (((Silent.refl l').snoc rfl).snoc rfl), hst, ?_⟩
        simp only [publishedClosedAt, List.filterMap_append] at hpub ⊢
        rw [hpub, haction]
        rfl
      | checkedOut =>
        refine publishClosed fun m hm => ?_
        rintro a ⟨⟩
        obtain ⟨e, m₀, rfl, hc⟩ := hload
        refine ⟨⟨e, m₀ ++ m, by simp, hc⟩, hst, ?_⟩
        simp only [publishedClosedAt, List.filterMap_append] at hpub hm ⊢
        rw [hpub, hm, haction]
        rfl
  refine Along.bind hend (fun result l' hp => ?_) fun e l' _ => .error e
  obtain ⟨hload, hst, hpub⟩ := hp result rfl
  rintro a ⟨⟩
  exact ⟨result.session, rfl, hload, hst, hpub⟩

end Watch

/-- A session that one event finds closed is closed for every later one. -/
theorem Deployment.Reaches.closed_later (hr : D.Reaches req p) {h₁ h₂ h₃ : List (Event n)}
    {e₀ : Event n} (hh : p.state.history = h₁ ++ e₀ :: (h₂ ++ e :: h₃)) {k : Uuid} {s : TableSession}
    (hs : lookup k e₀.before.sessions = some s) (hc : s.status = .closed) :
    ∃ s', lookup k e.before.sessions = some s' ∧ s'.status = .closed := by
  have hh' : p.state.history = (h₁ ++ e₀ :: h₂) ++ e :: h₃ := by simpa using hh
  obtain ⟨p₁, q₁, k₁, r₁, σ₁, hr₁, hh₁, -, -, he₁, -⟩ := hr.replay hh'
  obtain ⟨p₀, q₀, k₀, r₀, σ₀, hr₀, -, hp₀, hx₀, he₀, hrun⟩ := hr₁.replay hh₁
  have hb₀ : e₀.before = p₀.state.data := congrArg Event.before he₀
  have hb₁ : e.before = p₁.state.data := congrArg Event.before he₁
  rw [hb₀] at hs
  obtain ⟨s', hs', hst⟩ := hr₀.closed_run (.head (.exec hp₀ hx₀) hrun) hs hc
  exact ⟨s', hb₁ ▸ hs', hst.status⟩

section Stale

variable {user : TokenPayload} {k : Uuid} {a : Response}

theorem Deployment.Reaches.showsStale (hr : D.Reaches req p)
    (hreq : req t = .checkoutSession user k ∨ req t = .restoreSession user k)
    (ha : (p.threads t).answer = some (.ok a)) :
    Watch.ShowsStale k (.ok a) (own t p.state.history) := by
  rcases hreq with hreq | hreq
  · exact hr.watched (fun _ _ => trivial) (hreq ▸ Watch.checkoutSession) ha
  · exact hr.watched (fun _ _ => trivial) (hreq ▸ Watch.restoreSession) ha

/-- The session was not closed when the client read it, so no column shows the closing. -/
theorem Deployment.Reaches.loaded_open (hr : D.Reaches req p) {s s' : TableSession} {m : List (Event n)}
    {e₀ : Event n} (hl : own t p.state.history = e₀ :: m) (hs : lookup k e₀.before.sessions = some s)
    (he : e ∈ m) (hs' : lookup k e.before.sessions = some s') (hst : s'.status ≠ .closed) :
    s.status ≠ .closed ∧ s.closedAt = none := by
  obtain ⟨m₁, m₂, rfl⟩ := List.append_of_mem he
  have hsplit : own t p.state.history = [] ++ e₀ :: (m₁ ++ e :: m₂) := hl
  obtain ⟨h₁, h₂, hh, -, hm⟩ := filter_split hsplit
  obtain ⟨h₃, h₄, rfl, -, -⟩ := filter_split hm
  have hopen : s.status ≠ .closed := by
    intro hc
    obtain ⟨r, hr', hrc⟩ := hr.closed_later hh hs hc
    rw [hs'] at hr'
    cases hr'
    exact hst hrc
  refine ⟨hopen, ?_⟩
  have hm₀ : e₀ ∈ p.state.history := by rw [hh]; simp
  obtain ⟨hb, -, hen⟩ := hr.entry hm₀
  have hcol := hen.ok.sessionColumns s (mem_of_lookup hs)
  unfold TableSession.Columns at hcol
  cases hc : s.status with
  | opened => exact (by simpa [hc] using hcol : _ ∧ _).1
  | abandoned => exact (by simpa [hc] using hcol : _ ∧ _ ∧ _).2.1
  | closed => exact absurd hc hopen

theorem Left.closed_row {s : TableSession} {items : List OrderItem} (hl : Left owner e s items .close) :
    ∃ row, lookup s.id e.after.sessions = some row ∧ row.status = .closed ∧ row.closedAt.isSome := by
  refine ⟨Leave.close.row e.now e.before s .dismissed, ?_, rfl, rfl⟩
  rw [hl.after]
  simp [Holding.writes, lookup_singleton]

theorem Reopened.row {s : TableSession} (h : Reopened owner e s) :
    lookup s.id e.after.sessions = some (s.reopen e.now) := by
  rw [h.after]
  simp [Holding.writes, lookup_singleton]

/-- No successful checkout or restore answers with the row it has committed. -/
theorem never_refreshed (hr : D.Reaches req p)
    (hreq : req t = .checkoutSession user k ∨ req t = .restoreSession user k)
    (ha : (p.threads t).answer = some (.ok a)) :
    ∃ session e row, a.shown = some session ∧ commitsOf (own t p.state.history) = [e] ∧
      lookup k e.after.sessions = some row ∧ ¬ session.Agrees row ∧
      (row.status = .closed → publishedClosedAt (own t p.state.history) = [none, none] ∧
        row.closedAt.isSome) := by
  obtain ⟨s, hs, ⟨e₀, m, hl, hnc, hs₀⟩, hpub⟩ := hr.showsStale hreq ha a rfl
  have ho : Outcome owner (req t) (.ok a) (own t p.state.history) := (hr.kept.ended ha).2
  -- The commit comes after the first event, which is a query.
  have later {e : Event n} (hc : commitsOf (own t p.state.history) = [e]) : e ∈ m := by
    have he : e ∈ commitsOf (own t p.state.history) := by rw [hc]; exact List.mem_cons_self
    obtain ⟨hm, hce⟩ := List.mem_filter.mp he
    rw [hl] at hm
    rcases List.mem_cons.mp hm with rfl | hm
    · rw [hnc] at hce
      cases hce
    · exact hm
  rcases hreq with hreq | hreq
  · rw [hreq] at ho
    obtain ⟨result, rfl, e, s₁, hc, rfl, hst, hrep⟩ := answers_checkout ho
    obtain ⟨items, hleft, -⟩ := hrep.left
    obtain ⟨row, hrow, hrc, hrs⟩ := hleft.closed_row
    obtain ⟨hopen, hnone⟩ := hr.loaded_open hl hs₀ (later hc) hleft.valid.1 (by simp [hst])
    refine ⟨s, e, row, hs, hc, hrow, fun hag => hopen (hag.status.trans hrc), fun _ => ⟨?_, hrs⟩⟩
    rw [hpub, hnone]
  · rw [hreq] at ho
    obtain ⟨result, rfl, e, s₁, hc, rfl, hact⟩ := answers_restore ho
    obtain ⟨hab, hpub⟩ := hpub
    cases haction : result.action with
    | restored =>
      rw [haction] at hact
      refine ⟨s, e, _, hs, hc, hact.row, fun hag => ?_, fun hcl => by cases hcl⟩
      have hst := hag.status
      rw [hab] at hst
      cases hst
    | checkedOut =>
      rw [haction] at hact hpub
      obtain ⟨hst, total, -, hrep⟩ := hact
      obtain ⟨items, hleft, -⟩ := hrep.left
      obtain ⟨row, hrow, hrc, hrs⟩ := hleft.closed_row
      obtain ⟨-, hnone⟩ := hr.loaded_open hl hs₀ (later hc) hleft.valid.1 (by simp [hst])
      refine ⟨s, e, row, hs, hc, hrow, fun hag => ?_, fun _ => ⟨?_, hrs⟩⟩
      · have hst' := hag.status
        rw [hab, hrc] at hst'
        cases hst'
      · rw [hpub, hnone]
        rfl

end Stale

def AnswersRefreshed (req : Fin n → Request) (p : Clients n) : Prop :=
  ∀ t user k a, req t = .checkoutSession user k ∨ req t = .restoreSession user k →
    (p.threads t).answer = some (.ok a) →
      ∃ session, a.shown = some session ∧ Refreshed k session (own t p.state.history)

def cafeCheckout : Fin 2 → Request
  | 0 => cafeOrder
  | 1 => .checkoutSession cafeStaff 10

/-- The answer of the checkout says that the session is open. -/
theorem never_refreshed_cafe : ∃ p, cafe.Reaches cafeCheckout p ∧
    ∃ a session e row, (p.threads 1).answer = some (.ok a) ∧ a.shown = some session ∧
      commitsOf (own 1 p.state.history) = [e] ∧ lookup 10 e.after.sessions = some row ∧
      ¬ session.Agrees row := by
  obtain ⟨p, hr, hc⟩ := cafe.reaches_play cafeCheckout (fun p => (response p 1).isSome)
    (steps 0 15 ++ steps 1 11) (by decide)
  obtain ⟨a, ha⟩ := Option.isSome_iff_exists.mp hc
  obtain ⟨session, e, row, hs, hcm, hrow, hag, -⟩ :=
    never_refreshed hr (.inl rfl) (answer_of_response ha)
  exact ⟨p, hr, a, session, e, row, answer_of_response ha, hs, hcm, hrow, hag⟩

theorem refreshed_fails : ¬ ∀ p, cafe.Reaches cafeCheckout p → AnswersRefreshed cafeCheckout p := by
  intro h
  obtain ⟨p, hr, hc⟩ := cafe.reaches_play cafeCheckout
    (fun p => ((response p 1).bind Response.shown).any fun s => s.status == .opened &&
      (commitsOf (own 1 p.state.history)).length == 1 &&
      (commitsOf (own 1 p.state.history)).all fun e => e.after.statusOf 10 == some .closed)
    (steps 0 15 ++ steps 1 11) (by decide)
  obtain ⟨s, hs, hc⟩ := (Option.any_eq_true _ _).mp hc
  obtain ⟨a, ha, hs⟩ := Option.bind_eq_some_iff.mp hs
  simp only [Bool.and_eq_true, beq_iff_eq, List.all_eq_true] at hc
  obtain ⟨⟨hopen, hone⟩, hclosed⟩ := hc
  obtain ⟨e, he⟩ := List.length_eq_one_iff.mp hone
  obtain ⟨session, hs', href⟩ := h p hr 1 cafeStaff 10 a (.inl rfl) (answer_of_response ha)
  rw [hs] at hs'
  cases hs'
  have hst := hclosed e (by rw [he]; exact List.mem_cons_self)
  obtain ⟨row, hrow, hrs⟩ := Option.map_eq_some_iff.mp hst
  have hag := (href e row he hrow).1.status
  rw [hopen, hrs] at hag
  cases hag

end QOrder
