import QOrder.Leaving

/-! Taking a session out of use, statement by statement: the checkout, the direct
checkout of an abandoned session, and the transaction of the sweep. -/

namespace QOrder

open KeyedTable Concurrency

variable {n : Nat} {owner : Uuid → Uuid} {req : Fin n → Request} {d₀ d : Data} {σ : Sys n}
  {t : Fin n} {h : Holding} {l l' : List (Event n)} {α : Type} {e : Event n} {s : TableSession}
  {items : List OrderItem} {kind : Leave}

/-- The sessions whose status a commit changes. -/
def Event.statusChanges (e : Event n) : List (Uuid × SessionStatus × SessionStatus) :=
  e.before.sessions.filterMap fun s =>
    (lookup s.id e.after.sessions).bind fun s' =>
      if s.status = s'.status then none else some (s.id, s.status, s'.status)

def statusChanges (l : List (Event n)) : List (Uuid × SessionStatus × SessionStatus) :=
  (commitsOf l).flatMap Event.statusChanges

/-- The sessions the client has announced as abandoned. -/
def announced (l : List (Event n)) : List (Uuid × SessionStatus × SessionStatus) :=
  l.filterMap fun e =>
    match e.stmt with
    | .publish (.kitchen _) (.sessionAbandoned sessionId _) => some (sessionId, .opened, .abandoned)
    | _ => none

/-- The event neither commits nor announces anything. -/
structure Plain (e : Event n) : Prop where
  notCommit : e.isCommit = false
  silent : announced [e] = []

theorem filterMap_single {α β : Type} {f : α → Option β} {a : α} {rows : List α}
    (hn : rows.Nodup) (ha : a ∈ rows) (h : ∀ r ∈ rows, r ≠ a → f r = none) :
    rows.filterMap f = (f a).toList := by
  induction rows with
  | nil => cases ha
  | cons r rows ih =>
    obtain ⟨hr, hn⟩ := List.nodup_cons.mp hn
    by_cases he : r = a
    · subst he
      have hnone : rows.filterMap f = [] := by
        rw [List.filterMap_eq_nil_iff]
        intro x hx
        exact h x (List.mem_cons_of_mem _ hx) fun hxr => hr (hxr ▸ hx)
      cases hf : f r <;> simp [hf, hnone]
    · have hm : a ∈ rows := (List.mem_cons.mp ha).resolve_left (Ne.symm he)
      have hi := ih hn hm fun x hx => h x (List.mem_cons_of_mem _ hx)
      simp [h r List.mem_cons_self he, hi]

/-- The status change of a commit that writes a version of one session. -/
theorem statusChanges_single (hd : e.before.Ok owner) (s' : TableSession)
    (hs : lookup s.id e.before.sessions = some s) (hk : s'.id = s.id)
    (ha : e.after.sessions = overlay e.before.sessions [s']) :
    e.statusChanges = if s.status = s'.status then [] else [(s.id, s.status, s'.status)] := by
  have hm := mem_of_lookup hs
  rw [Event.statusChanges, filterMap_single (List.Nodup.of_map _ hd.sessionIds) hm]
  · simp only [ha, lookup_overlay, lookup_singleton, key_session, hk, if_true, Option.some_or,
      Option.bind_some]
    split <;> rfl
  · intro r hr hne
    have hid : s'.id ≠ r.id := fun he =>
      hne (eq_of_key_eq hd.sessionIds hr hm (by simpa [← hk] using he.symm))
    simp [ha, lookup_singleton, hid, hd.mem_sessions.mp hr]

/-- `e` commits that the session `s` with these items is taken out of use. -/
structure Left (owner : Uuid → Uuid) (e : Event n) (s : TableSession) (items : List OrderItem)
    (kind : Leave) : Prop where
  commit : e.isCommit = true
  ok : e.before.Ok owner
  valid : (Holding.leaving s items kind .dismissed).Valid owner e.now e.before
  after : e.after =
    e.before.overlay ((Holding.leaving s items kind .dismissed).writes e.now e.before)

theorem Left.made (he : Left owner e s items kind) :
    e.Made owner (.leaving s items kind .dismissed) :=
  ⟨he.commit, he.ok, he.valid, trivial, he.after⟩

theorem Left.statusChanges (he : Left owner e s items kind) :
    e.statusChanges = [(s.id, s.status, kind.status)] := by
  have hne : s.status ≠ kind.status := by
    rcases he.valid.2.1 with ho | ⟨ho, hk⟩
    · rw [ho]
      cases kind <;> simp [Leave.status]
    · rw [ho, hk]
      simp [Leave.status]
  rw [statusChanges_single he.ok (kind.row e.now e.before s .dismissed) he.valid.1 (by simp)
    (by rw [he.after]; rfl)]
  simp [hne]

namespace Holding

variable {now : Timestamp} {k : Uuid}

theorem leaving_view_servedTotal (hd : d.Ok owner) {stage : Stage}
    (hv : (leaving s items kind stage).Valid owner now d) :
    servedTotal ((d.overlay ((leaving s items kind stage).writes now d)).itemsOf s.id) = servedTotal items := by
  by_cases hst : stage = .marked
  · rw [Data.itemsOf_of_nil rfl (by simp [writes, hst]), hv.2.2.servedTotal]
  · obtain ⟨late, he, hp⟩ := hv.2.2
    have hitems : ((leaving s items kind stage).writes now d).items = cancelUnserved now kind.reason items := by
      simp [writes, hst]
    rw [Data.itemsOf_cancelled hd.itemIds he rfl hitems, Data.servedTotal_append_pending hp, servedTotal_cancel]

/-- The `UPDATE` cancels the unserved items that it meets. -/
theorem leaving_cancel (items : List OrderItem) :
    (leaving s (d.itemsOf s.id) kind .cancelled).writes now d =
      ((leaving s items kind .marked).writes now d).overlay
        { items := (d.overlay ((leaving s items kind .marked).writes now d)).cancelledItems s.id now
            kind.reason } := by
  have hview : (d.overlay ((leaving s items kind .marked).writes now d)).itemsOf s.id = d.itemsOf s.id :=
    Data.itemsOf_of_nil rfl (by simp [writes])
  have hrow : kind.row now d s .cancelled = kind.row now d s .marked := by cases kind <;> rfl
  simp only [Data.cancelledItems, hview]
  simp [writes, Data.overlay, hrow, cancelUnserved]

/-- With no unserved item there is nothing to cancel. -/
theorem leaving_cancel_none (hi : items.filter OrderItem.isUnserved = []) :
    (leaving s items kind .cancelled).writes now d = (leaving s items kind .marked).writes now d := by
  have hrow : kind.row now d s .cancelled = kind.row now d s .marked := by cases kind <;> rfl
  simp [writes, hrow, cancelUnserved, changed, hi]

theorem leaving_setTotal (hv : (leaving s items .close .cancelled).Valid owner now d) {ctx : Ctx}
    (hd : d.Ok owner) :
    (leaving s items .close .totalled).writes now d =
      ((leaving s items .close .cancelled).writes now d).overlay
        ((Command.setTotal s.id (servedTotal items)).rows ctx
          (d.overlay ((leaving s items .close .cancelled).writes now d))) := by
  have hids : UniqueKeys (d.overlay ((leaving s items .close .cancelled).writes now d)).sessions :=
    uniqueKeys_overlay hd.sessionIds (by simp [writes])
  have hl : lookup s.id (d.overlay ((leaving s items .close .cancelled).writes now d)).sessions =
      some (s.close now) := by simp [writes, Leave.row, lookup_singleton]
  have hrows : changed (fun r => r.id == s.id) (fun r => r.setTotal (servedTotal items))
      (d.overlay ((leaving s items .close .cancelled).writes now d)).sessions =
        [(s.close now).setTotal (servedTotal items)] :=
    changed_eq_singleton (k := s.id) (by simp) hids hl (by simp)
  simp only [Command.rows, hrows]
  have hov : KeyedTable.overlay [s.close now] [(s.close now).setTotal (servedTotal items)] =
      [(s.close now).setTotal (servedTotal items)] := overlay_same_key rfl
  simp [writes, Data.overlay, Leave.row, hov, hv.2.2.servedTotal]

theorem leaving_dismiss {stage : Stage} (hst : stage ≠ .marked)
    (hrow : kind.row now d s .dismissed = kind.row now d s stage) (hdis : stage ≠ .dismissed) :
    (leaving s items kind .dismissed).writes now d =
      ((leaving s items kind stage).writes now d).overlay
        { calls := (d.overlay ((leaving s items kind stage).writes now d)).dismissedCalls s.id
            s.restaurantId now } := by
  have hcalls : (d.overlay ((leaving s items kind stage).writes now d)).calls = d.calls := by
    simp [writes, hdis]
  simp [writes, Data.overlay, hrow, hst, hdis, Data.dismissedCalls, Data.pendingCalls]

end Holding

/-- A statement that reads the items again under the lock. -/
theorem At.reread (ha : At owner t (.leaving s items kind .marked) l σ) :
    At owner t (.leaving s (σ.data.itemsOf s.id) kind .marked) l σ :=
  ⟨ha.own, ha.writes, ⟨ha.valid.1, ha.valid.2.1, .refl _ _⟩, .inr (ha.began.resolve_left (by simp))⟩

/-- What a checkout has read: the items whose unserved ones it reports, and those it has taken. -/
structure CloseList (s : TableSession) (l : List (Event n)) (autoCancelled : List CancelledItemSummary)
    (listed items : List OrderItem) : Prop where
  met : ItemsMet (Stmt.listsItems s.id) s.id listed l
  taken : ItemsMet (Stmt.takesItems s.id) s.id items l
  later : ∃ late, items = listed ++ late ∧ ∀ i ∈ late, i.status = .pending
  summaries : autoCancelled = (listed.filter OrderItem.isUnserved).map OrderItem.summary

theorem CloseList.snoc {autoCancelled : List CancelledItemSummary} {listed : List OrderItem}
    (h : CloseList s l autoCancelled listed items) (he : e.keeps = true)
    (hl : Stmt.listsItems s.id e.stmt = false) (ht : Stmt.takesItems s.id e.stmt = false) :
    CloseList s (l ++ [e]) autoCancelled listed items :=
  ⟨h.met.snoc he hl, h.taken.snoc he ht, h.later, h.summaries⟩

namespace Triple

variable {post : Except Exn α → Holding → List (Event n) → Prop}

theorem readBack {loaded : List TableSession} {f : TableSession → Action α}
    (hs : ∃ e ∈ l, ∃ s', lookup s.id e.after.sessions = some s' ∧ s'.tableId = s.tableId)
    (hl : ∀ r ∈ loaded, r.id = s.id → r.tableId = s.tableId)
    (hk : ∀ row e, e.isCommit = false → row.id = s.id → row.tableId = s.tableId →
      Triple owner req d₀ t .nothing (l ++ [e]) (f row) post) :
    Triple owner req d₀ t .nothing l (SessionService.readBack s.id loaded >>= f) post := by
  simp only [SessionService.readBack, bind_assoc]
  refine query fun σ hi ha => ⟨_, ha, ?_⟩
  obtain ⟨e, he, s', hs', ht⟩ := hs
  obtain ⟨row, hrow, ht', -⟩ := (hi.own_grows ha he).session hs'
  have hid : row.id = s.id := key_of_lookup hrow
  rw [ha.view_nothing, Query.eval, hrow]
  simp only [Action.scalarOne, Prog.pure_def, Prog.ret_bind, loadedInstance]
  cases hload : lookup row.id loaded with
  | none => exact hk _ _ rfl hid (ht'.trans ht)
  | some r =>
    have hr : r.id = s.id := (key_of_lookup hload).trans hid
    exact hk _ _ rfl hr (hl r (mem_of_lookup hload) hr)

theorem dismissPending {stage : Stage} {f : Nat → Action α} (hst : stage ≠ .marked)
    (hdis : stage ≠ .dismissed)
    (hrow : ∀ now d, kind.row now d s .dismissed = kind.row now d s stage)
    (hk : ∀ e m, Plain e → e.keeps = true →
      (∃ k rid, e.stmt = .command (.dismissPending k rid)) →
      Triple owner req d₀ t (.leaving s items kind .dismissed) (l ++ [e]) (f m) post)
    (herr : ∀ e e', Plain e' → post (.error (.db e)) .nothing (l ++ [e'])) :
    Triple owner req d₀ t (.leaving s items kind stage) l
      (StaffCallService.dismissPending s.id s.restaurantId >>= f) post := by
  simp only [StaffCallService.dismissPending, bind_assoc]
  refine command ⟨s, items, kind, stage, rfl, hst, hdis, rfl, rfl⟩ (fun σ hi ha _ _ => ?_)
    fun σ e hi ha => herr e _ ⟨rfl, rfl⟩
  refine ⟨.leaving s items kind .dismissed, ?_, ha.valid, hk _ _ ⟨rfl, rfl⟩ rfl ⟨_, _, rfl⟩⟩
  rw [Sys.rows, ha.view]
  exact Holding.leaving_dismiss hst (hrow _ _) hdis

theorem closeCommit {loaded : List TableSession} {f : SessionService.CheckoutResult → Action α}
    {autoCancelled : List CancelledItemSummary} {m : Nat} (hj : LeaveOf l s .close (req t))
    (htaken : ItemsMet (Stmt.takesItems s.id) s.id items l)
    (hl : ∀ r ∈ loaded, r.id = s.id → r.tableId = s.tableId)
    (hok : ∀ finalSession e l₂, commitsOf l₂ = [] → Left owner e s items .close →
      Tells owner (req t) (l ++ e :: l₂) s.restaurantId s.id (.sessionClosed finalSession.id
        finalSession.tableId (servedTotal items) finalSession.closedAt) →
      Triple owner req d₀ t .nothing (l ++ e :: l₂) (f ⟨finalSession, servedTotal items, autoCancelled, m⟩) post) :
    Triple owner req d₀ t (.leaving s items .close .dismissed) l (do
      Action.commit
      let finalSession ← SessionService.readBack s.id loaded
      f ⟨finalSession, servedTotal items, autoCancelled, m⟩) post := by
  refine commit trivial ⟨hj, htaken⟩ fun σ hi ha => ?_
  refine readBack ⟨_, List.mem_append_right _ List.mem_cons_self, ?_⟩ hl fun row e' he' hid ht => ?_
  · simp [Sys.event, Holding.writes, lookup_singleton, Leave.row]
  · rw [List.append_assoc]
    have hleft : Left owner (σ.event t .commit (.ok ()) (σ.data.overlay
        ((Holding.leaving s items .close .dismissed).writes (σ.now t) σ.data))) s items .close :=
      ⟨rfl, hi.ok, ha.valid, rfl⟩
    refine hok row _ [e'] (by simp [he']) hleft ?_
    intro channel hof
    refine ⟨_, _, [e'], .leaving s items .close .dismissed, rfl, ⟨hj, htaken⟩, hleft.made, hof,
      row.closedAt, ?_⟩
    rw [hid, ht]

theorem closeTotalled {loaded : List TableSession} {f : SessionService.CheckoutResult → Action α}
    {autoCancelled : List CancelledItemSummary} {listed : List OrderItem}
    (hj : ∀ l', Quiet l l' → LeaveOf l' s .close (req t)) (hr : CloseList s l autoCancelled listed items)
    (hl : ∀ r ∈ loaded, r.id = s.id → r.tableId = s.tableId)
    (hok : ∀ result l₁ e l₂, Quiet l l₁ → commitsOf l₂ = [] → Left owner e s items .close →
      CloseList s l₁ result.autoCancelledItems listed items → result.totalAmount = servedTotal items →
      Tells owner (req t) (l₁ ++ e :: l₂) s.restaurantId s.id (.sessionClosed result.session.id
        result.session.tableId result.totalAmount result.session.closedAt) →
      Triple owner req d₀ t .nothing (l₁ ++ e :: l₂) (f result) post)
    (herr : ∀ e l', Quiet l l' → post (.error (.db e)) .nothing l') :
    Triple owner req d₀ t (.leaving s items .close .cancelled) l (do
      let totalAmount ← Action.query (.servedTotal s.id)
      let _ ← Action.command (.setTotal s.id totalAmount)
      let dismissedCount ← StaffCallService.dismissPending s.id s.restaurantId
      Action.commit
      let finalSession ← SessionService.readBack s.id loaded
      f ⟨finalSession, totalAmount, autoCancelled, dismissedCount⟩) post := by
  refine query fun σ hi ha => ⟨_, ha, ?_⟩
  have htotal : Query.eval (σ.ctx t) σ.catalog (σ.view t) (.servedTotal s.id) = servedTotal items := by
    rw [ha.view]
    exact Holding.leaving_view_servedTotal hi.ok ha.valid
  rw [htotal]
  let e₁ : Event n := σ.event t (.query (.servedTotal s.id)) (.ok (servedTotal items)) σ.data
  have hq₁ := (Quiet.refl l).snoc (e := e₁) rfl
  refine command ⟨s, items, rfl, rfl, rfl⟩ (fun σ₁ hi ha _ _ => ?_) fun σ e hi ha =>
    herr e _ (hq₁.snoc rfl)
  refine ⟨.leaving s items .close .totalled, ?_, ha.valid, ?_⟩
  · rw [Sys.rows, ha.view]
    exact Holding.leaving_setTotal ha.valid hi.ok
  let setTotal := Command.setTotal s.id (servedTotal items)
  let e₂ := σ₁.event t (.command setTotal) (.ok (σ₁.rows t setTotal)) σ₁.data
  have hq₂ := hq₁.snoc (e := e₂) rfl
  have hr₂ := (hr.snoc (e := e₁) rfl rfl rfl).snoc (e := e₂) rfl rfl rfl
  refine dismissPending (by simp) (by simp) (fun _ _ => rfl) (fun e m he hkeeps hkind => ?_)
    fun e e' he => herr e _ (hq₂.snoc he.1)
  obtain ⟨k, rid, hst⟩ := hkind
  have hq₃ := hq₂.snoc he.1
  have hr₃ := hr₂.snoc hkeeps (by simp [hst, Stmt.listsItems]) (by simp [hst, Stmt.takesItems])
  exact closeCommit (hj _ hq₃) hr₃.taken hl fun row e' l₂ hl₂ hleft ht =>
    hok _ _ _ _ hq₃ hl₂ hleft hr₃ rfl ht

theorem settle {loaded : List TableSession} {f : SessionService.CheckoutResult → Action α}
    (hj : ∀ l', Quiet l l' → LeaveOf l' s .close (req t)) (hlock : Locked s.id l)
    (hl : ∀ r ∈ loaded, r.id = s.id → r.tableId = s.tableId)
    (hok : ∀ result l₁ e l₂ listed items, Quiet l l₁ → commitsOf l₂ = [] → Left owner e s items .close →
      CloseList s l₁ result.autoCancelledItems listed items → result.totalAmount = servedTotal items →
      Tells owner (req t) (l₁ ++ e :: l₂) s.restaurantId s.id (.sessionClosed result.session.id
        result.session.tableId result.totalAmount result.session.closedAt) →
      Triple owner req d₀ t .nothing (l₁ ++ e :: l₂) (f result) post)
    (herr : ∀ e l', Quiet l l' → post (.error (.db e)) .nothing l') :
    Triple owner req d₀ t (.leaving s items .close .marked) l
      (SessionService.settle s.id s.restaurantId loaded >>= f) post := by
  simp only [SessionService.settle, bind_assoc]
  refine query fun σ hi ha => ?_
  have hauto : Query.eval (σ.ctx t) σ.catalog (σ.view t) (.unservedItems s.id) =
      ((σ.data.itemsOf s.id).filter OrderItem.isUnserved).map OrderItem.summary := by
    rw [ha.view]
    simp only [Query.eval, Data.itemsOf_of_nil (d := σ.data) (k := s.id)
      (w := (Holding.leaving s items .close .marked).writes (σ.now t) σ.data) rfl (by simp [Holding.writes])]
  rw [hauto, SessionService.cancelIfAny]
  let e₀ : Event n := σ.event t (.query (.unservedItems s.id))
    (.ok (((σ.data.itemsOf s.id).filter OrderItem.isUnserved).map OrderItem.summary)) σ.data
  have hq := (Quiet.refl l).snoc (e := e₀) rfl
  have hlisted : ItemsMet (Stmt.listsItems s.id) s.id (σ.data.itemsOf s.id) (l ++ [e₀]) :=
    .last hlock (by simp [e₀, Sys.event, Stmt.listsItems]) rfl
  split
  · rename_i hempty
    have hnil : (σ.data.itemsOf s.id).filter OrderItem.isUnserved = [] := by simpa using hempty
    have ha' := ha.reread
    refine ⟨.leaving s (σ.data.itemsOf s.id) .close .cancelled, ⟨ha.own, ?_, ha'.valid, ?_⟩, ?_⟩
    · rw [ha.writes, Holding.leaving_cancel_none hnil]
      rfl
    · exact .inr (ha.began.resolve_left (by simp))
    · have htaken : ItemsMet (Stmt.takesItems s.id) s.id (σ.data.itemsOf s.id) (l ++ [e₀]) :=
        .last hlock (by simp [e₀, Sys.event, Stmt.takesItems]) rfl
      exact closeTotalled (fun l' hq' => hj _ (hq.trans hq')) ⟨hlisted, htaken, ⟨[], by simp, by simp⟩, rfl⟩ hl
        (fun result l₁ e l₂ hq' => hok result l₁ e l₂ _ _ (hq.trans hq')) fun e l' hq' => herr e _ (hq.trans hq')
  · refine ⟨_, ha.reread, ?_⟩
    simp only [bind_assoc]
    refine command ⟨s, _, .close, rfl, rfl⟩ (fun σ₁ hi₁ ha₁ _ _ => ?_) fun σ e hi ha =>
      herr e _ (hq.snoc rfl)
    refine ⟨.leaving s (σ₁.data.itemsOf s.id) .close .cancelled, ?_, ⟨ha₁.valid.1, ha₁.valid.2.1, .refl _ _⟩, ?_⟩
    · rw [Sys.rows, ha₁.view]
      exact Holding.leaving_cancel _
    · let cancel := Command.cancelUnserved s.id "table_closed"
      let e₁ := σ₁.event t (.command cancel) (.ok (σ₁.rows t cancel)) σ₁.data
      have hq₁ := hq.snoc (e := e₁) rfl
      have htaken : ItemsMet (Stmt.takesItems s.id) s.id (σ₁.data.itemsOf s.id) (l ++ [e₀] ++ [e₁]) :=
        .last (hlock.snoc rfl) (by simp [e₁, cancel, Sys.event, Stmt.takesItems]) rfl
      exact closeTotalled (fun l' hq' => hj _ (hq₁.trans hq'))
        ⟨hlisted.snoc rfl rfl, htaken, ha₁.valid.2.2, rfl⟩ hl
        (fun result l₁ e l₂ hq' => hok result l₁ e l₂ _ _ (hq₁.trans hq')) fun e l' hq' => herr e _ (hq₁.trans hq')

end Triple

end QOrder
