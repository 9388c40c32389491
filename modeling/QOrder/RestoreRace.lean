import QOrder.Watch
import QOrder.SessionLifecycle

/-! Restoring an abandoned session. The path is chosen by whether the table has an open
session, and the others may open or close one before the choice takes effect. -/

namespace QOrder

open KeyedTable Concurrency

variable {n : Nat} {owner : Uuid → Uuid} {req : Fin n → Request} {D : Deployment owner} {d₀ : Data}
  {p : Clients n} {t : Fin n} {l l' : List (Event n)} {e : Event n} {α : Type} {tableId k : Uuid}

def Data.hasOpen (d : Data) (tableId : Uuid) : Bool :=
  d.sessions.any fun s => s.tableId == tableId && s.status == .opened

theorem Data.hasOpen_eq_false {d : Data} : d.hasOpen tableId = false ↔ d.NoOpen tableId := by
  simp [hasOpen, NoOpen]

/-- The table whose open session the client looks for. -/
def Event.looksAt (e : Event n) : Option Uuid :=
  match e.stmt with
  | .query (.openSessions tableId) => some tableId
  | _ => none

/-- The statements by which the path of a restore takes effect. -/
def Event.decides (e : Event n) : Bool :=
  match e.stmt with
  | .command (.reopenSession _ _) | .commit => true
  | _ => false

/-- The amount does not fit the column that is to hold it. -/
def Event.overflows (e : Event n) : Bool :=
  match e.stmt with
  | .command (.setTotal _ totalAmount) => totalAmount ≤ -numericLimit || numericLimit ≤ totalAmount
  | _ => false

/-- Whether the table has an open session is the same when the client looks and when its
path takes effect. -/
def Steady (l : List (Event n)) : Prop :=
  ∀ x ∈ l, ∀ tableId ∈ x.looksAt, ∀ y ∈ l, y.decides = true →
    y.before.hasOpen tableId = x.before.hasOpen tableId

instance (l : List (Event n)) : Decidable (Steady l) :=
  inferInstanceAs (Decidable (∀ x ∈ l, ∀ tableId ∈ x.looksAt, ∀ y ∈ l, _ → _ = _))

/-- Looking for an open session of the table, the client has found one or none. -/
def Looked (tableId : Uuid) (there : Bool) (l : List (Event n)) : Prop :=
  ∃ x ∈ l, x.looksAt = some tableId ∧ x.before.hasOpen tableId = there

theorem Looked.mono {there : Bool} (h : Looked tableId there l) (hl : l ⊆ l') :
    Looked tableId there l' := by
  obtain ⟨x, hx, h⟩ := h
  exact ⟨x, hl hx, h⟩

/-- The client's statements are not aborted, and its amounts fit. -/
structure Executable (e : Event n) : Prop where
  alive : e.killed = false
  fits : e.overflows = false

theorem reopenSession_violation {ctx : Ctx} {d : Data} {restaurantId : Uuid} {x : DbError}
    (hv : (Command.reopenSession k restaurantId).violation ctx d = some x) :
    ∃ s ∈ d.sessions, s.id = k ∧ d.hasOpen s.tableId = true := by
  simp only [Command.violation, Command.indexEntries, Command.rows] at hv
  obtain ⟨hany, -⟩ | ⟨-, hn⟩ := ite_eq_iff.mp hv
  · simp only [List.any_eq_true, List.mem_map, Bool.and_eq_true, beq_iff_eq] at hany
    obtain ⟨_, ⟨r, hr, rfl⟩, s, hs, ⟨ht, ho⟩, -⟩ := hany
    obtain ⟨r₀, hr₀, hm, rfl⟩ := mem_changed.mp hr
    simp only [TableSession.matchesId, Bool.and_eq_true, beq_iff_eq] at hm
    have hopen : d.hasOpen r₀.tableId = true :=
      List.any_eq_true.mpr ⟨s, hs, by simpa [ht] using ho⟩
    exact ⟨r₀, hr₀, hm.1.1, hopen⟩
  · cases hn

namespace Watch

abbrev Restores (owner : Uuid → Uuid) (req : Fin n → Request) (d₀ : Data) (t : Fin n) (p : Action α)
    (post : Except Exn α → List (Event n) → Prop) (l : List (Event n)) : Prop :=
  Watch owner req d₀ t Executable anywhere p post l

namespace Restores

/-- The program has gone on from `l`, and only missing rows make it fail. -/
def Regular (l : List (Event n)) (r : Except Exn α) (l' : List (Event n)) : Prop :=
  l ⊆ l' ∧ ∀ e, r = .error e → e.Irregular

theorem command_sure {c : Command} {f : Data → Action α} {post : Except Exn α → List (Event n) → Prop}
    (hv : ∀ (σ : Sys n) x, Executable (σ.event t (.command c) (.error x) σ.data) →
      c.violation (σ.ctx t) (σ.view t) = none)
    (hok : ∀ σ : Sys n, Restores owner req d₀ t (f (σ.rows t c)) post
      (l ++ [σ.event t (.command c) (.ok (σ.rows t c)) σ.data])) :
    Restores owner req d₀ t (Action.command c >>= f) post l :=
  Watch.command_sure trivial (fun _ he => he.alive) (fun σ x _ _ _ he => hv σ x he)
    fun σ _ _ _ => hok σ

theorem scalarOne {β : Type} {a : Option β} {f : β → Action α}
    {post : Except Exn α → List (Event n) → Prop} (herr : ∀ e : Exn, e.Irregular → post (.error e) l)
    (hok : ∀ b, Restores owner req d₀ t (f b) post l) :
    Restores owner req d₀ t (Action.scalarOne a >>= f) post l := by
  cases a with
  | none => exact herr _ Exn.irregular_noResultFound
  | some b => exact hok b

theorem readBack {loaded : List TableSession} {f : TableSession → Action α}
    {post : Except Exn α → List (Event n) → Prop}
    (herr : ∀ (e : Exn) l', l ⊆ l' → e.Irregular → post (.error e) l')
    (hok : ∀ s l', l ⊆ l' → Restores owner req d₀ t (f s) post l') :
    Restores owner req d₀ t (SessionService.readBack k loaded >>= f) post l := by
  simp only [SessionService.readBack, bind_assoc]
  refine query trivial fun σ _ _ _ _ => scalarOne (fun e he => ?_) fun s => ?_
  · exact herr e _ (List.subset_append_left _ _) he
  · exact hok _ _ (List.subset_append_left _ _)

theorem settle {restaurantId : Uuid} {loaded : List TableSession} :
    Restores owner req d₀ t (SessionService.settle k restaurantId loaded) (Regular l) l := by
  have irregular {e : Exn} {l' : List (Event n)} (hl : l ⊆ l') (he : e.Irregular) :
      Regular l (.error e : Except Exn SessionService.CheckoutResult) l' := by
    refine ⟨hl, ?_⟩
    rintro e' ⟨⟩
    exact he
  have rest {autoCancelled : List CancelledItemSummary} {l₁ : List (Event n)} (h₁ : l ⊆ l₁) :
      Restores owner req d₀ t (do
        let totalAmount ← Action.query (.servedTotal k)
        let _ ← Action.command (.setTotal k totalAmount)
        let dismissedCount ← StaffCallService.dismissPending k restaurantId
        Action.commit
        let finalSession ← SessionService.readBack k loaded
        return (⟨finalSession, totalAmount, autoCancelled, dismissedCount⟩ :
          SessionService.CheckoutResult)) (Regular l) l₁ := by
    refine query trivial fun σ _ _ _ _ => command_sure (fun σ₁ x he => ?_) fun σ₁ => ?_
    · have hfits := he.fits
      simp only [Event.overflows, Sys.event, Bool.or_eq_false_iff, decide_eq_false_iff_not] at hfits
      simp [Command.violation, Command.indexEntries, hfits]
    simp only [StaffCallService.dismissPending, bind_assoc]
    refine command_sure (fun σ₂ _ _ => by simp [Command.violation, Command.indexEntries]) fun σ₂ => ?_
    refine commit trivial fun σ₃ _ _ _ _ => readBack (fun e l' hl he => ?_) fun s l' hl => ?_
    · exact irregular (List.Subset.trans h₁ (List.Subset.trans (by simp) hl)) he
    · exact ⟨List.Subset.trans h₁ (List.Subset.trans (by simp) hl), fun e he => by cases he⟩
  unfold SessionService.settle
  refine query trivial fun σ _ _ _ _ => ?_
  unfold SessionService.cancelIfAny
  split
  · exact rest (List.subset_append_left _ _)
  · simp only [bind_assoc]
    refine command_sure (fun σ₂ _ _ => by simp [Command.violation, Command.indexEntries]) fun σ₂ => ?_
    exact rest (by simp)

/-- The client has found the session, and another one open at its table. -/
def FoundOther (k : Uuid) (l : List (Event n)) : Prop :=
  ∃ x ∈ l, ∃ s, lookup k x.before.sessions = some s ∧ Looked s.tableId true l

theorem FoundOther.mono (h : FoundOther k l) (hl : l ⊆ l') : FoundOther k l' := by
  obtain ⟨x, hx, s, hs, hlook⟩ := h
  exact ⟨x, hl hx, s, hs, hlook.mono hl⟩

def RestorePost (k : Uuid) (r : Except Exn SessionService.RestoreResult) (l : List (Event n)) : Prop :=
  match r with
  | .ok result => result.action = .checkedOut → FoundOther k l
  | .error e => (∃ message, e = .valueError message) ∨ e.Irregular ∨ ¬ Steady l

theorem directCheckout {s : TableSession} {restaurantId : Uuid} (hfound : FoundOther k l) :
    Restores owner req d₀ t (SessionService.directCheckout s restaurantId) (RestorePost k) l := by
  unfold SessionService.directCheckout
  refine command_sure (fun σ _ _ => by simp [Command.violation, Command.indexEntries]) fun σ => ?_
  split
  · exact .inl ⟨_, rfl⟩
  · refine Along.bind settle (fun result l' hp _ => ?_) fun e l' hp => .inr (.inl (hp.2 e rfl))
    exact hfound.mono (List.Subset.trans (List.subset_append_left _ _) hp.1)

/-- A violated index shows that a session has been opened since the client looked. -/
theorem restoreToOpen {s : TableSession} {restaurantId : Uuid} (hidle : Idle l)
    (hrow : ∀ σ, Inv owner req d₀ σ → own t σ.history = l →
      ∃ s', lookup s.id σ.data.sessions = some s' ∧ s'.tableId = s.tableId)
    (hlook : Looked s.tableId false l) :
    Restores owner req d₀ t (SessionService.restoreToOpen s restaurantId) (RestorePost k) l := by
  unfold SessionService.restoreToOpen
  refine command trivial (fun σ _ _ _ _ _ => ?_) fun σ x hi ht hl hv he => ?_
  · split
    · exact .inl ⟨_, rfl⟩
    · refine commit trivial fun σ₁ _ _ _ _ => readBack (fun e l' _ he => .inr (.inl he)) fun s l' _ => ?_
      exact fun h => by cases h
  · rcases hv with hv | rfl
    · right
      right
      intro hsteady
      obtain ⟨r, hr, hk, hopen⟩ := reopenSession_violation hv
      rw [ht.view (hl ▸ hidle)] at hr hopen
      obtain ⟨s', hs', htab⟩ := hrow σ hi hl
      rw [hi.ok.mem_sessions, hk, hs'] at hr
      cases hr
      obtain ⟨x', hx', hat, hnone⟩ := hlook
      have hsame : σ.data.hasOpen s.tableId = x'.before.hasOpen s.tableId :=
        hsteady x' (List.mem_append_left _ hx') _ hat _ (List.mem_append_right _ List.mem_cons_self) rfl
      rw [htab, hsame, hnone] at hopen
      cases hopen
    · cases he.alive

theorem restoreAbandoned {s : TableSession} {restaurantId : Uuid} (hidle : Idle l) (he : e ∈ l)
    (hload : lookup s.id e.before.sessions = some s) (hsame : lookup s.id e.after.sessions = some s) :
    Restores owner req d₀ t (SessionService.restoreAbandoned s restaurantId) (RestorePost s.id) l := by
  simp only [SessionService.restoreAbandoned, findOpenSession, bind_assoc]
  refine query trivial fun σ hi ht hl _ => ?_
  have looked (r) {there : Bool} (h : σ.data.hasOpen s.tableId = there) : Looked s.tableId there
      (l ++ [σ.event t (.query (.openSessions s.tableId)) r σ.data]) :=
    ⟨_, List.mem_append_right _ List.mem_cons_self, rfl, h⟩
  rw [ht.view (hl ▸ hidle), Query.eval]
  rcases openSessions_eq hi.ok s.tableId with ⟨hno, hq⟩ | ⟨r, hr, hrt, ho, hq⟩
  · simp only [hq, Action.scalarOneOrNone, Prog.pure_def, Prog.ret_bind, Option.map_none]
    refine restoreToOpen (hidle.snoc rfl) (fun σ₁ hi₁ hl₁ => ?_) (looked _ (Data.hasOpen_eq_false.mpr hno))
    have hm := List.mem_of_mem_filter (hl₁ ▸ List.mem_append_left _ he)
    obtain ⟨s', hs', htab, -⟩ := (hi₁.grows hm).session hsame
    exact ⟨s', hs', htab⟩
  · simp only [hq, Action.scalarOneOrNone, Prog.pure_def, Prog.ret_bind, Option.map_some]
    have hopen : σ.data.hasOpen s.tableId = true :=
      List.any_eq_true.mpr ⟨r, hr, by simp [hrt, ho]⟩
    exact directCheckout ⟨e, List.mem_append_left _ he, s, hload, looked _ hopen⟩

theorem restore {restaurantId : Uuid} :
    Restores owner req d₀ t (SessionService.restore k restaurantId) (fun r l => match r with
      | .ok none => True
      | .ok (some result) => result.action = .checkedOut → FoundOther k l
      | .error e => (∃ message, e = .valueError message) ∨ e.Irregular ∨ ¬ Steady l) [] := by
  unfold SessionService.restore
  refine query trivial fun σ _ ht hl _ => ?_
  rw [ht.view (hl ▸ Idle.nil), Query.eval]
  cases hs : (lookup k σ.data.sessions).filter fun s => s.restaurantId == restaurantId with
  | none => trivial
  | some s =>
    have hlook : lookup k σ.data.sessions = some s := (Option.filter_eq_some_iff.mp hs).1
    obtain rfl : s.id = k := key_of_lookup hlook
    dsimp only
    split
    · exact .inl ⟨_, rfl⟩
    · cases s.abandonedAt with
      | none => exact .inl ⟨_, rfl⟩
      | some abandonedAt =>
        refine appNow trivial fun σ₁ _ _ _ _ => ?_
        split
        · exact .inl ⟨_, rfl⟩
        · refine Along.bind (restoreAbandoned ((Idle.nil.snoc rfl).snoc rfl)
            (List.mem_append_left _ (List.mem_append_right _ List.mem_cons_self)) hlook hlook)
            (fun result l' hp => hp) fun e l' hp => hp

theorem restoreSession {user : TokenPayload} :
    Restores owner req d₀ t (StaffTables.restoreSession user k) (fun r l => match r with
      | .ok result => result.action = .checkedOut → FoundOther k l
      | .error e => (∃ message, e = .http 400 message ∨ e = .http 404 message) ∨ e.Irregular ∨
        ¬ Steady l) [] := by
  unfold StaffTables.restoreSession
  have hrestore : Restores owner req d₀ t
      (QOrder.translate (valueErrorToHttp 400) (SessionService.restore k user.restaurantId))
      (fun r l => match r with
        | .ok none => True
        | .ok (some result) => result.action = .checkedOut → FoundOther k l
        | .error e => (∃ message, e = .http 400 message) ∨ e.Irregular ∨ ¬ Steady l) [] := by
    refine restore.translate (fun a l' hp => by cases a <;> exact hp) fun e l' hp => ?_
    rcases hp with ⟨message, rfl⟩ | he | hs
    · exact .inl ⟨message, rfl⟩
    · refine .inr (.inl ?_)
      cases e with
      | valueError message => exact absurd trivial he.1
      | _ => exact he
    · exact .inr (.inr hs)
  refine Along.bind hrestore (fun res l' hp => ?_) fun e l' hp => ?_
  · cases res with
    | none => exact .inl ⟨_, .inr rfl⟩
    | some result =>
      simp only [StaffTables.publishRestored]
      split
      · simp only [bind_assoc]
        refine publish trivial fun σ _ _ _ _ => publish trivial fun σ' _ _ _ _ => ?_
        exact fun h => (hp h).mono (by simp)
      · simp only [StaffTables.publishClosed, bind_assoc]
        refine publish trivial fun σ _ _ _ _ => publish trivial fun σ' _ _ _ _ => ?_
        exact fun h => (hp h).mono (by simp)
  · rcases hp with ⟨message, rfl⟩ | he | hs
    · exact .inl ⟨message, .inl rfl⟩
    · exact .inr (.inl he)
    · exact .inr (.inr hs)

end Restores

end Watch

section Answers

/-- What a restore of the session may be answered, by the events of its client. The
session itself is abandoned when it commits, so an open one is another one. -/
def RestoreAnswer (k : Uuid) (res : Except Exn Response) (l : List (Event n)) : Prop :=
  match res with
  | .ok (.restore result) => ∃ e s, commitsOf l = [e] ∧ lookup k e.before.sessions = some s ∧
    s.status = .abandoned ∧ (result.action = .restored ↔ e.before.hasOpen s.tableId = false)
  | .error (.http statusCode _) => statusCode = 400 ∨ statusCode = 404
  | _ => False

theorem Deployment.Reaches.session_table (hr : D.Reaches req p) (he : e ∈ p.state.history)
    {s : TableSession} (hs : lookup k e.before.sessions = some s) :
    ∃ s', lookup k p.state.data.sessions = some s' ∧ s'.tableId = s.tableId := by
  obtain ⟨hb, -, hen⟩ := hr.entry he
  obtain ⟨s', hs', ht, -⟩ := (hen.grows.trans (hr.inv.grows he)).session hs
  exact ⟨s', hs', ht⟩

variable {user : TokenPayload} {res : Except Exn Response}

theorem restore_answered (hr : D.Reaches req p) (hreq : req t = .restoreSession user k)
    (hs : Steady (own t p.state.history)) (he : ∀ e ∈ own t p.state.history, Executable e)
    (ha : (p.threads t).answer = some res) : RestoreAnswer k res (own t p.state.history) := by
  have hend := (hr.kept.ended ha).2
  rw [hreq] at hend
  rcases hr.wrapped (by rw [hreq]; rfl) he Watch.Restores.restoreSession ha with
    ⟨result, rfl, hfound⟩ | ⟨x, rfl, hx⟩
  · have hanswers : Answers owner (.restoreSession user k) (.restore result) (own t p.state.history) := hend
    obtain ⟨result', hres, e, s, hc, rfl, hact⟩ := answers_restore hanswers
    cases hres
    have hm : e ∈ own t p.state.history := by
      have hmem : e ∈ commitsOf (own t p.state.history) := by simp [hc]
      exact List.mem_of_mem_filter hmem
    cases haction : result.action with
    | restored =>
      rw [haction] at hact
      exact ⟨e, s, hc, hact.valid.1, hact.valid.2.1, iff_of_true haction
        (Data.hasOpen_eq_false.mpr hact.valid.2.2)⟩
    | checkedOut =>
      rw [haction] at hact
      obtain ⟨hst, total, -, hrep⟩ := hact
      obtain ⟨items, hleft, -⟩ := hrep.left
      obtain ⟨x, hx, s₀, hs₀, y, hy, hat, hopen⟩ := hfound haction
      obtain ⟨s₁, hs₁, ht₁⟩ := hr.session_table (List.mem_of_mem_filter hx) hs₀
      obtain ⟨s₂, hs₂, ht₂⟩ := hr.session_table (List.mem_of_mem_filter hm) hleft.valid.1
      cases hs₁.symm.trans hs₂
      have hdecides : e.decides = true := by
        have hcommit := hleft.commit
        cases hq : e.stmt <;> simp [Event.isCommit, hq] at hcommit
        simp [Event.decides, hq]
      have hsame := hs y hy s₀.tableId hat e hm hdecides
      refine ⟨e, s, hc, hleft.valid.1, hst, iff_of_false (by simp [haction]) ?_⟩
      rw [← ht₂, ht₁, hsame, hopen]
      simp
  · rcases hx with ⟨message, rfl | rfl⟩ | hx | hx
    · exact .inl rfl
    · exact .inr rfl
    · exact absurd hx (hr.not_irregular ha)
    · exact absurd hs hx

def cafeRestore : Fin 4 → Request
  | 0 => cafeOrder
  | 1 => .runSweep
  | 2 => .restoreSession cafeStaff 10
  | 3 => .openTable cafeStaff 2

/-- A session is left for seven hours and abandoned. -/
def cafeAbandoned : List (Turn 4) := steps 0 15 ++ .tick (hours 7) (hours 7) :: steps 1 7

theorem restore_answered_cafe : ∃ p, cafe.Reaches cafeRestore p ∧
    p.state.data.statusOf 10 = some .opened ∧
      ∃ res, (p.threads 2).answer = some res ∧ RestoreAnswer 10 res (own 2 p.state.history) := by
  obtain ⟨p, hr, hc⟩ := cafe.reaches_play cafeRestore
    (fun p => decide (p.state.data.statusOf 10 = some .opened) && (p.threads 2).answer.isSome &&
      decide (Steady (own 2 p.state.history)) &&
      (own 2 p.state.history).all fun e => !e.killed && !e.overflows)
    (cafeAbandoned ++ steps 2 8) (by decide +kernel)
  simp only [Bool.and_eq_true, decide_eq_true_eq, List.all_eq_true, Bool.not_eq_true'] at hc
  obtain ⟨⟨⟨hopen, hres⟩, hs⟩, he⟩ := hc
  obtain ⟨res, ha⟩ := Option.isSome_iff_exists.mp hres
  exact ⟨p, hr, hopen, res, ha, restore_answered hr rfl hs (fun e hm => ⟨(he e hm).1, (he e hm).2⟩) ha⟩

/-- The staff open the table between the select and the update of the restore. -/
theorem restore_answered_fails : ¬ ∀ p, cafe.Reaches cafeRestore p → ∀ res,
    (p.threads 2).answer = some res → RestoreAnswer 10 res (own 2 p.state.history) := by
  intro h
  obtain ⟨p, hr, hc⟩ := cafe.reaches_play cafeRestore
    (fun p => decide (failure p 2 = some (.db .uniqueViolation)))
    (cafeAbandoned ++ steps 2 3 ++ steps 3 4 ++ steps 2 1) (by decide +kernel)
  exact h p hr _ (answer_of_failure (of_decide_eq_true hc))

end Answers

end QOrder
