import QOrder.CustomerProofs

/-! Every request keeps to the discipline, and its own commits account for its answer. -/

namespace QOrder

open KeyedTable Concurrency

variable {n : Nat} {owner : Uuid → Uuid} {req : Fin n → Request} {d₀ d : Data} {σ : Sys n}
  {t : Fin n} {l l' : List (Event n)} {e : Event n} {s : TableSession}

/-- The table a request is about, as far as the client has resolved it. -/
def Concerns (r : Request) (tableId : Uuid) (l : List (Event n)) : Prop :=
  match r with
  | .getSessionSnapshot qrToken | .createOrder qrToken _ | .cancelItemCustomer qrToken _ _
  | .callStaff qrToken | .wsCustomer qrToken => Resolved qrToken tableId l
  | .openTable _ tableId' => tableId = tableId'
  | _ => False

/-- What an answer says about the events of its client. -/
def Answers (owner : Uuid → Uuid) (r : Request) (a : Response) (l : List (Event n)) : Prop :=
  match r, a with
  | .getSessionSnapshot _, .snapshot session _ | .openTable _ _, .session session =>
    ∃ tableId, Concerns r tableId l ∧ MetOpen tableId session.id l ∧ session.tableId = tableId
  | .createOrder _ _, .order response =>
    ∃ tableId, Concerns r tableId l ∧ MetOpen tableId response.tableSessionId l
  | .checkoutSession _ sessionId, .checkout result =>
    ∃ e s, commitsOf l = [e] ∧ s.id = sessionId ∧ s.status = .opened ∧
      Reports owner l e s result.autoCancelledItems result.totalAmount
  | .restoreSession _ sessionId, .restore result =>
    ∃ e s, commitsOf l = [e] ∧ s.id = sessionId ∧
      match result.action with
      | .restored => Reopened owner e s
      | .checkedOut => s.status = .abandoned ∧ ∃ totalAmount, result.totalAmount = some totalAmount ∧
        Reports owner l e s result.autoCancelledItems totalAmount
  | .wsCustomer _, .subscribed channel => ∀ c ∈ channel, ∃ tableId k, Concerns r tableId l ∧
    MetOpen tableId k l ∧ c = .session (owner tableId) k
  | .runSweep, .done | .abandonSession _, .done => statusChanges l = announced l
  | .cancelItemCustomer _ _ _, .item _ | .setItemStatus _ _ _, .item _
  | .cancelItemStaff _ _ _, .item _ | .callStaff _, .call _ | .ackStaffCall _ _, .call _ => True
  | _, _ => False

/-- What an error says about the events of its client. -/
structure Fails (r : Request) (e : Exn) (l : List (Event n)) : Prop where
  cause : e.Ordinary ∨ (∃ message, e = .runtimeError message) ∧
    ∃ tableId, Concerns r tableId l ∧ Lost tableId l
  checkout : ∀ user k, r = .checkoutSession user k → commitsOf l = []
  restore : ∀ user k, r = .restoreSession user k →
    commitsOf l = [] ∧ e ≠ .http 400 missingAbandonedAt
  sweep : r = .runSweep ∨ (∃ k, r = .abandonSession k) → statusChanges l = announced l

def Outcome (owner : Uuid → Uuid) (r : Request) (res : Except Exn Response) (l : List (Event n)) :
    Prop :=
  match res with
  | .ok a => Answers owner r a l
  | .error e => Fails r e l

def HandlerPost (owner : Uuid → Uuid) (r : Request) (res : Except Exn Response) (h' : Holding)
    (l' : List (Event n)) : Prop :=
  h' = .nothing ∧ Outcome owner r res l'

theorem Balanced.nil (hb : Balanced [] l) : statusChanges l = announced l := by
  obtain ⟨m, rfl, hm⟩ := hb
  exact hm

theorem RestoreError.ordinary {e : Exn} (he : RestoreError e) :
    (valueErrorToHttp 400 e).Ordinary ∧ valueErrorToHttp 400 e ≠ .http 400 missingAbandonedAt := by
  rcases he with ⟨e', rfl⟩ | ⟨message, rfl, hne⟩
  · exact ⟨trivial, by simp [valueErrorToHttp]⟩
  · exact ⟨trivial, by simpa [valueErrorToHttp] using hne⟩

namespace Triple

theorem openTable {user : TokenPayload} {tableId : Uuid} : Triple owner req d₀ t .nothing []
    (StaffTables.openTable user tableId) (fun r h' l' => h' = .nothing ∧
      match r with
      | .ok session => MetOpen tableId session.id l' ∧ session.tableId = tableId
      | .error e => e.Ordinary ∨ (∃ message, e = .runtimeError message) ∧ Lost tableId l') := by
  unfold StaffTables.openTable
  refine query fun σ hi ha => ⟨_, ha, ?_⟩
  rw [Query.eval]
  cases htab : σ.catalog.tables.find? fun t => t.id == tableId && t.restaurantId == user.restaurantId with
  | none => exact .raise ⟨rfl, .inl trivial⟩
  | some table =>
    have hown := hi.owned table (List.mem_of_find?_eq_some htab)
    have hp := List.find?_some htab
    simp only [Bool.and_eq_true, beq_iff_eq] at hp
    obtain ⟨rfl, hrid⟩ := hp
    dsimp only
    split
    · refine (getOrOpen (hrid ▸ hown) (by simp)).bind ?_ ?_
      · rintro opened h' l' ⟨rfl, -, hseen, ht, -⟩
        exact .ret ⟨rfl, hseen.met, ht⟩
      · rintro e h' l' ⟨rfl, -, he⟩
        exact ⟨rfl, he⟩
    · exact .raise ⟨rfl, .inl trivial⟩

theorem publishClosed {restaurantId sessionId : Uuid} {session : TableSession} {totalAmount : Money}
    {α : Type} {f : Unit → Action α} {post : Except Exn α → Holding → List (Event n) → Prop}
    (ht : Tells owner (req t) l restaurantId sessionId (closedEvent session totalAmount))
    (hk : ∀ l', Quiet l l' → Triple owner req d₀ t .nothing l' (f ()) post) :
    Triple owner req d₀ t .nothing l
      (StaffTables.publishClosed restaurantId sessionId session totalAmount >>= f) post := by
  simp only [StaffTables.publishClosed, bind_assoc]
  refine publishBoth ht fun e e' he he' => hk _ ?_
  exact ((Quiet.refl l).snoc (by simp [Event.isCommit, he])).snoc (by simp [Event.isCommit, he'])

theorem checkoutSession {user : TokenPayload} {k : Uuid} (hreq : req t = .checkoutSession user k) :
    Triple owner req d₀ t .nothing []
    (StaffTables.checkoutSession user k) (fun r h' l' => h' = .nothing ∧
      match r with
      | .ok result => ∃ e s, commitsOf l' = [e] ∧ s.id = k ∧ s.status = .opened ∧
        Reports owner l' e s result.autoCancelledItems result.totalAmount
      | .error e => e.Ordinary ∧ commitsOf l' = []) := by
  unfold StaffTables.checkoutSession
  refine query fun σ hi ha => ⟨_, ha, ?_⟩
  rw [ha.view_nothing, Query.eval]
  cases hs : (lookup k σ.data.sessions).filter fun s => s.restaurantId == user.restaurantId with
  | none => exact .raise ⟨rfl, trivial, by simp⟩
  | some tableSession =>
    obtain ⟨hs, -⟩ := Option.filter_eq_some_iff.mp hs
    have hk : tableSession.id = k := key_of_lookup hs
    refine (checkout hreq rfl (by simp) ?_).bind ?_ ?_
    · intro r hr
      obtain rfl := List.mem_singleton.mp hr
      exact ⟨_, List.mem_append_right _ List.mem_cons_self, hk.symm ▸ hs⟩
    · rintro res h' l' ⟨rfl, hp⟩
      cases res with
      | none => exact .raise ⟨rfl, trivial, hp.commitsOf.trans (by simp)⟩
      | some result =>
        obtain ⟨ht, e, s, hc, hk, ho, hrep⟩ := hp
        refine publishClosed ht fun l'' hq => .ret ⟨rfl, e, s, ?_, hk, ho, hrep.quiet hq⟩
        obtain ⟨items, hleft, -⟩ := hrep.left
        obtain ⟨l₁, l₂, rfl, hq₁, hl₂⟩ := hc.quiet hq
        simp [hleft.commit, hq₁.commitsOf, hl₂]
    · rintro e h' l' ⟨rfl, hq, e', rfl⟩
      exact ⟨rfl, trivial, hq.commitsOf.trans (by simp)⟩

theorem publishRestored {restaurantId sessionId : Uuid} {result : SessionService.RestoreResult}
    {α : Type} {f : Unit → Action α} {post : Except Exn α → Holding → List (Event n) → Prop}
    (ht : Tells owner (req t) l restaurantId sessionId (restoreEvent result))
    (hk : ∀ l', Quiet l l' → Triple owner req d₀ t .nothing l' (f ()) post) :
    Triple owner req d₀ t .nothing l
      (StaffTables.publishRestored restaurantId sessionId result >>= f) post := by
  unfold StaffTables.publishRestored
  unfold restoreEvent at ht
  cases ha : result.action with
  | restored =>
    rw [ha] at ht
    simp only [bind_assoc]
    refine publishBoth ht fun e e' he he' => hk _ ?_
    exact ((Quiet.refl l).snoc (by simp [Event.isCommit, he])).snoc (by simp [Event.isCommit, he'])
  | checkedOut =>
    rw [ha] at ht
    exact publishClosed ht hk

theorem restoreSession {user : TokenPayload} {k : Uuid} (hreq : req t = .restoreSession user k) :
    Triple owner req d₀ t .nothing []
    (StaffTables.restoreSession user k) (fun r h' l' => h' = .nothing ∧
      match r with
      | .ok result => Answers owner (.restoreSession user k) (.restore result) l'
      | .error e => e.Ordinary ∧ commitsOf l' = [] ∧ e ≠ .http 400 missingAbandonedAt) := by
  unfold StaffTables.restoreSession
  have hrestore : Triple owner req d₀ t .nothing []
      (QOrder.translate (valueErrorToHttp 400) (SessionService.restore k user.restaurantId))
      fun r h' l' => h' = .nothing ∧
        match r with
        | .ok res => RestorePost owner (req t) k user.restaurantId [] (.ok res) h' l'
        | .error e => e.Ordinary ∧ commitsOf l' = [] ∧ e ≠ .http 400 missingAbandonedAt := by
    refine translate (restore hreq rfl (by simp)) ?_ ?_
    · exact fun a h' l' hp => ⟨hp.1, hp⟩
    · rintro e h' l' ⟨hh, hq, he⟩
      exact ⟨hh, he.ordinary.1, hq.commitsOf.trans (by simp), he.ordinary.2⟩
  refine hrestore.bind ?_ ?_
  · rintro res h' l' ⟨rfl, -, hp⟩
    cases res with
    | none => exact .raise ⟨rfl, trivial, hp.commitsOf.trans (by simp), by
        simp [StaffTables.sessionMissing]⟩
    | some result =>
      obtain ⟨ht, e, s, hc, hk, hp⟩ := hp
      refine publishRestored ht fun l'' hq => .ret ⟨rfl, e, s, (hc.quiet hq).commitsOf ?_, hk, ?_⟩
      · split at hp
        · exact hp.commit
        · obtain ⟨-, total, -, hrep⟩ := hp
          obtain ⟨items, hleft, -⟩ := hrep.left
          exact hleft.commit
      · cases ha : result.action with
        | restored =>
          rw [ha] at hp
          exact hp
        | checkedOut =>
          rw [ha] at hp
          obtain ⟨hs, total, htotal, hrep⟩ := hp
          exact ⟨hs, total, htotal, hrep.quiet hq⟩
  · rintro e h' l' ⟨rfl, hp⟩
    exact ⟨rfl, hp⟩

theorem abandonRequest {k : Uuid} (hreq : req t = .abandonSession k) :
    Triple owner req d₀ t .nothing [] (Request.abandonSession k).handler
      (HandlerPost owner (.abandonSession k)) := by
  simp only [Request.handler]
  refine query fun σ hi ha => ⟨_, ha, ?_⟩
  rw [ha.view_nothing, Query.eval]
  cases hs : lookup k σ.data.sessions with
  | none => exact .ret ⟨rfl, rfl⟩
  | some row =>
    have hk : row.id = k := key_of_lookup hs
    have hb (r) : Balanced [] ([] ++ [σ.event t (.query (.sessionById k)) r σ.data]) :=
      (Balanced.refl []).snoc ⟨rfl, rfl⟩
    refine (abandonSession (by simp [hreq]) (fun l' s hq hs' => ?_) ?_).bind ?_ ?_
    · rw [hreq]
      exact ⟨hq.commitsOf.trans (by simp), rfl, hs'.trans hk⟩
    · exact ⟨_, List.mem_cons_self, row, hk.symm ▸ hs, rfl⟩
    · rintro - h' l' ⟨rfl, hb', -⟩
      exact .ret ⟨rfl, ((hb _).trans hb').nil⟩
    · rintro e h' l' ⟨rfl, hb', he⟩
      obtain ⟨e', rfl⟩ := he e rfl
      exact ⟨rfl, ⟨.inl trivial, by simp, by simp, fun _ => ((hb _).trans hb').nil⟩⟩

theorem sweepRequest (hreq : req t = .runSweep) :
    Triple owner req d₀ t .nothing [] Request.runSweep.handler (HandlerPost owner .runSweep) := by
  simp only [Request.handler]
  refine (runSweep hreq).bind ?_ ?_
  · rintro - h' l' ⟨rfl, hb, -⟩
    exact .ret ⟨rfl, hb.nil⟩
  · rintro e h' l' ⟨rfl, hb, he⟩
    obtain ⟨e', rfl⟩ := he e rfl
    exact ⟨rfl, ⟨.inl trivial, by simp, by simp, fun _ => hb.nil⟩⟩

/-- A handler that wraps the answer of an endpoint. -/
theorem respond {α : Type} {p : Action α} {post : Except Exn α → Holding → List (Event n) → Prop}
    (wrap : α → Response) {r : Request} (hp : Triple owner req d₀ t .nothing [] p post)
    (hok : ∀ a h' l', post (.ok a) h' l' → h' = .nothing ∧ Answers owner r (wrap a) l')
    (herr : ∀ e h' l', post (.error e) h' l' → h' = .nothing ∧ Fails r e l') :
    Triple owner req d₀ t .nothing [] (p >>= fun a => pure (wrap a)) (HandlerPost owner r) :=
  hp.bind (fun a h' l' ha => .ret (hok a h' l' ha)) herr

theorem customer_fails {α : Type} {qrToken : String} {good : α → List (Event n) → Prop} {e : Exn}
    {h' : Holding} {r : Request} (hp : CustomerPost qrToken good (.error e) h' l)
    (hr : ∀ tableId, Resolved qrToken tableId l → Concerns r tableId l)
    (hc : ∀ user k, r ≠ .checkoutSession user k) (hs : ∀ user k, r ≠ .restoreSession user k)
    (hw : r ≠ .runSweep) (ha : ∀ k, r ≠ .abandonSession k) : h' = .nothing ∧ Fails r e l := by
  refine ⟨hp.1, ⟨hp.2.imp_right fun ⟨hm, tableId, hres, hl⟩ => ⟨hm, tableId, hr _ hres, hl⟩,
    fun user k he => absurd he (hc user k), fun user k he => absurd he (hs user k), ?_⟩⟩
  rintro (he | ⟨k, he⟩)
  · exact absurd he hw
  · exact absurd he (ha k)

theorem ordinary_fails {α : Type} {e : Exn} {h' : Holding} {r : Request}
    (hp : OrdinaryPost (.error e : Except Exn α) h' l)
    (hc : ∀ user k, r ≠ .checkoutSession user k) (hs : ∀ user k, r ≠ .restoreSession user k)
    (hw : r ≠ .runSweep) (ha : ∀ k, r ≠ .abandonSession k) : h' = .nothing ∧ Fails r e l := by
  refine ⟨hp.1, ⟨.inl (hp.2 e rfl), fun user k he => absurd he (hc user k),
    fun user k he => absurd he (hs user k), ?_⟩⟩
  rintro (he | ⟨k, he⟩)
  · exact absurd he hw
  · exact absurd he (ha k)

/-- Every request runs its handler within the discipline, to the outcome it answers for. -/
theorem handler (t : Fin n) :
    Triple owner req d₀ t .nothing [] (req t).handler (HandlerPost owner (req t)) := by
  cases hreq : req t with
  | getSessionSnapshot qrToken =>
    refine respond (fun a : TableSession × List OrderItem => .snapshot a.1 a.2)
      getSessionSnapshot (fun a h' l' hp => hp) fun e h' l' hp => ?_
    exact customer_fails hp (fun _ hres => hres) (by simp) (by simp) (by simp) (by simp)
  | createOrder qrToken body =>
    refine respond _ (createOrder hreq) (fun a h' l' hp => hp) fun e h' l' hp => ?_
    exact customer_fails hp (fun _ hres => hres) (by simp) (by simp) (by simp) (by simp)
  | cancelItemCustomer qrToken itemId reason =>
    refine respond _ (cancelItemCustomer hreq) (fun a h' l' hp => ⟨hp.1, trivial⟩) fun e h' l' hp => ?_
    exact customer_fails hp (fun _ hres => hres) (by simp) (by simp) (by simp) (by simp)
  | callStaff qrToken =>
    refine respond _ (callStaff hreq) (fun a h' l' hp => ⟨hp.1, trivial⟩) fun e h' l' hp => ?_
    exact customer_fails hp (fun _ hres => hres) (by simp) (by simp) (by simp) (by simp)
  | openTable user tableId =>
    refine respond _ openTable (fun a h' l' hp => ?_) fun e h' l' hp => ?_
    · exact ⟨hp.1, tableId, rfl, hp.2⟩
    · exact ⟨hp.1, ⟨hp.2.imp_right fun hh => ⟨hh.1, tableId, rfl, hh.2⟩, by simp, by simp, by simp⟩⟩
  | setItemStatus user itemId toStatus =>
    refine respond _ (setItemStatus hreq) (fun a h' l' hp => ⟨hp.1, trivial⟩) fun e h' l' hp => ?_
    exact ordinary_fails hp (by simp) (by simp) (by simp) (by simp)
  | cancelItemStaff user itemId reason =>
    refine respond _ (cancelItemStaff hreq) (fun a h' l' hp => ⟨hp.1, trivial⟩) fun e h' l' hp => ?_
    exact ordinary_fails hp (by simp) (by simp) (by simp) (by simp)
  | ackStaffCall user callId =>
    refine respond (fun a => .call (some a)) (ackStaffCall hreq)
      (fun a h' l' hp => ⟨hp.1, trivial⟩) fun e h' l' hp => ?_
    exact ordinary_fails hp (by simp) (by simp) (by simp) (by simp)
  | checkoutSession user k =>
    refine respond _ (checkoutSession hreq) (fun a h' l' hp => hp) fun e h' l' hp => ?_
    exact ⟨hp.1, ⟨.inl hp.2.1, fun _ _ _ => hp.2.2, by simp, by simp⟩⟩
  | restoreSession user k =>
    refine respond _ (restoreSession hreq) (fun a h' l' hp => hp) fun e h' l' hp => ?_
    exact ⟨hp.1, ⟨.inl hp.2.1, by simp, fun _ _ _ => hp.2.2, by simp⟩⟩
  | wsCustomer qrToken =>
    refine respond _ wsCustomer (fun a h' l' hp => hp) fun e h' l' hp => ?_
    exact customer_fails hp (fun _ hres => hres) (by simp) (by simp) (by simp) (by simp)
  | runSweep => exact sweepRequest hreq
  | abandonSession k => exact abandonRequest hreq

end Triple

end QOrder
