import QOrder.LifecycleProofs

/-! The sweep announces exactly the sessions it has abandoned. -/

namespace QOrder

open KeyedTable Concurrency

variable {n : Nat} {owner : Uuid → Uuid} {req : Fin n → Request} {d₀ : Data} {σ : Sys n}
  {t : Fin n} {h : Holding} {l l' : List (Event n)} {α : Type} {e : Event n}

/-- `l'` extends `l` by events that announce the status changes they commit. -/
def Balanced (l l' : List (Event n)) : Prop := ∃ m, l' = l ++ m ∧ statusChanges m = announced m

theorem announced_append (l l' : List (Event n)) :
    announced (l ++ l') = announced l ++ announced l' := List.filterMap_append

theorem statusChanges_append (l l' : List (Event n)) :
    statusChanges (l ++ l') = statusChanges l ++ statusChanges l' := by simp [statusChanges]

namespace Balanced

theorem refl (l : List (Event n)) : Balanced l l := ⟨[], by simp, rfl⟩

theorem trans {l'' : List (Event n)} (h : Balanced l l') (h' : Balanced l' l'') : Balanced l l'' := by
  obtain ⟨m, rfl, hm⟩ := h
  obtain ⟨m', rfl, hm'⟩ := h'
  exact ⟨m ++ m', by simp, by rw [statusChanges_append, announced_append, hm, hm']⟩

theorem snoc (h : Balanced l l') (he : Plain e) : Balanced l (l' ++ [e]) := by
  refine h.trans ⟨[e], rfl, ?_⟩
  simp [statusChanges, he.notCommit, he.silent]

/-- A commit that abandons a session, followed by its announcement. -/
theorem announce {e' : Event n} {x : Uuid × SessionStatus × SessionStatus} (h : Balanced l l')
    (he : e.isCommit = true) (hs : e.statusChanges = [x]) (ha : announced [e] = [])
    (he' : e'.isCommit = false) (ha' : announced [e'] = [x]) : Balanced l (l' ++ [e] ++ [e']) := by
  refine h.trans ⟨[e] ++ [e'], by simp, ?_⟩
  rw [announced_append, ha, ha']
  simp [statusChanges, he, he', hs]

end Balanced

theorem Listed.mono {k : Uuid} (hl : Listed k l) (h : Balanced l l') : Listed k l' := by
  obtain ⟨m, rfl, -⟩ := h
  exact hl.append m

/-- The client has met the session, which belongs to the restaurant. -/
def MetSession (k restaurantId : Uuid) (l : List (Event n)) : Prop :=
  ∃ e ∈ l, ∃ s, lookup k e.after.sessions = some s ∧ s.restaurantId = restaurantId

theorem MetSession.mono {k restaurantId : Uuid} (hm : MetSession k restaurantId l)
    (h : Balanced l l') : MetSession k restaurantId l' := by
  obtain ⟨m, rfl, -⟩ := h
  obtain ⟨e, he, hs⟩ := hm
  exact ⟨e, List.mem_append_left _ he, hs⟩

theorem stale_of_mem {ctx : Ctx} {c : Catalog} {d : Data} {row : StaleSession}
    {rows : List StaleSession} (hq : Query.eval ctx c d .staleSessions = .ok rows) (hr : row ∈ rows) :
    ∃ s ∈ d.sessions, ∃ rs ∈ c.settings, s.id = row.id ∧ s.restaurantId = row.restaurantId ∧
      rs.restaurantId = s.restaurantId ∧ s.status = .opened ∧
      s.lastActivityAt < rs.staleBefore ctx.now := by
  simp only [Query.eval] at hq
  split at hq
  · cases hq
  · cases hq
    simp only [openWithSettings, List.mem_map, List.mem_filter, List.mem_flatMap,
      decide_eq_true_eq, beq_iff_eq] at hr
    obtain ⟨p, ⟨⟨s, ⟨hs, ho⟩, rs, ⟨hrs, hr⟩, rfl⟩, hlt⟩, rfl⟩ := hr
    exact ⟨s, hs, rs, hrs, rfl, rfl, hr, ho, hlt⟩

namespace Triple

def SweepPost (l : List (Event n)) (r : Except Exn Unit) (h' : Holding) (l' : List (Event n)) : Prop :=
  h' = .nothing ∧ Balanced l l' ∧ ∀ e, r = .error e → ∃ e', e = .db e'

theorem publishAbandoned {s : TableSession} {items : List OrderItem} (ho : s.status = .opened)
    (hleft : Left owner e s items .abandon)
    (hj : Justified l' (.leaving s items .abandon .dismissed) (req t))
    (ha : announced [e] = []) (hb : Balanced l l') :
    Triple owner req d₀ t .nothing (l' ++ [e]) (Scheduler.publishAbandoned s.id s.restaurantId)
      (SweepPost l) := by
  have hs : e.statusChanges = [(s.id, .opened, .abandoned)] := by
    rw [hleft.statusChanges, ho]
    rfl
  unfold Scheduler.publishAbandoned
  refine .last ?_
  simp only [bind_assoc]
  refine publishBoth (fun channel hof => ?_) fun e₁ e₂ h₁ h₂ => .ret ⟨rfl, ?_, by simp⟩
  · exact ⟨l', e, [], .leaving s items .abandon .dismissed, rfl, hj, hleft.made, hof, rfl⟩
  · have hplain : e₁.isCommit = false := by simp [Event.isCommit, h₁]
    have hb' := hb.announce hleft.commit hs ha hplain (by simp [announced, h₁])
    exact hb'.snoc ⟨by simp [Event.isCommit, h₂], by simp [announced, h₂]⟩

theorem abandonSession {k restaurantId : Uuid} (hl : req t = .runSweep → Listed k l)
    (hj : ∀ l' s, Quiet l l' → s.id = k → LeaveOf l' s .abandon (req t))
    (hr : MetSession k restaurantId l) :
    Triple owner req d₀ t .nothing l (Scheduler.abandonSession k restaurantId) (SweepPost l) := by
  have herr {l' : List (Event n)} (hb : Balanced l l') (e : DbError) :
      SweepPost l (.error (.db e)) .nothing l' := ⟨rfl, hb, fun _ he => ⟨e, (Except.error.inj he).symm⟩⟩
  unfold Scheduler.abandonSession
  refine casSession (k := k) (p := fun s => s.id == k && s.status == .opened)
    (g := fun now s => s.abandon now) (fun _ _ => rfl) (by simp +contextual) ⟨rfl, hl⟩
    (fun e he => .ret ⟨rfl, (Balanced.refl l).snoc he, by simp⟩) (fun σ s hi ha _ hs hp => ?_)
    fun e e' he => herr ((Balanced.refl l).snoc he) e
  have hk : s.id = k := key_of_lookup hs
  subst hk
  have ho : s.status = .opened := by simpa using hp
  obtain ⟨e₀, he₀, s₀, hs₀, rfl⟩ := hr
  obtain ⟨s', hs', -, hr'⟩ := (hi.own_grows ha he₀).session hs₀
  rw [hs] at hs'
  cases hs'
  refine ⟨.leaving s (σ.data.itemsOf s.id) .abandon .marked, by simp [Holding.writes, Leave.row],
    ⟨hs, .inl ho, .refl _ _⟩, fun e he hlock => ?_⟩
  have hb := (Balanced.refl l).snoc he
  simp only [List.head?_cons]
  refine command ⟨s, _, .abandon, rfl, rfl⟩ (fun σ hi ha _ _ => ?_) fun σ e hi ha =>
    herr (hb.snoc ⟨rfl, rfl⟩) e
  refine ⟨.leaving s (σ.data.itemsOf s.id) .abandon .cancelled, ?_, ⟨ha.valid.1, ha.valid.2.1, .refl _ _⟩, ?_⟩
  · rw [Sys.rows, ha.view]
    exact Holding.leaving_cancel _
  rw [← hr']
  refine dismissPending (by simp) (by simp) (fun _ _ => rfl) (fun e₁ m he₁ hkeeps hkind => ?_) fun e e' he =>
    herr ((hb.snoc ⟨rfl, rfl⟩).snoc he) e
  obtain ⟨k, rid, hst⟩ := hkind
  let cancel := Command.cancelUnserved s.id "session_abandoned"
  let e' := σ.event t (.command cancel) (.ok (σ.rows t cancel)) σ.data
  have htaken : ItemsMet (Stmt.takesItems s.id) s.id (σ.data.itemsOf s.id) (l ++ [e] ++ [e']) :=
    .last (.last hlock) (by simp [e', cancel, Sys.event, Stmt.takesItems]) rfl
  have hjust := And.intro (hj _ s ((((Quiet.refl l).snoc he.1).snoc (e := e') rfl).snoc he₁.1) rfl)
    (htaken.snoc hkeeps (by simp [hst, Stmt.takesItems]))
  refine commit trivial hjust fun σ hi ha => ?_
  have hleft : Left owner (σ.event t .commit (.ok ()) (σ.data.overlay
      ((Holding.leaving s _ .abandon .dismissed).writes (σ.now t) σ.data))) s _ .abandon :=
    ⟨rfl, hi.ok, ha.valid, rfl⟩
  exact publishAbandoned ho hleft hjust rfl ((hb.snoc ⟨rfl, rfl⟩).snoc he₁)

theorem sweepRows (hreq : req t = .runSweep) (rows : List StaleSession)
    (hrows : ∀ row ∈ rows, Listed row.id l ∧ MetSession row.id row.restaurantId l) :
    Triple owner req d₀ t .nothing l (Scheduler.sweepRows rows) (SweepPost l) := by
  induction rows generalizing l with
  | nil => exact .ret ⟨rfl, .refl l, by simp⟩
  | cons row rows ih =>
    obtain ⟨hlist, hmet⟩ := hrows row List.mem_cons_self
    unfold Scheduler.sweepRows
    have hone : Triple owner req d₀ t .nothing l
        ((Scheduler.abandonSession row.id row.restaurantId).tryCatch fun _ => Action.rollback)
        (fun r h' l' => h' = .nothing ∧ Balanced l l' ∧ ∀ e, r ≠ .error e) := by
      refine tryCatch (abandonSession (fun _ => hlist) (fun l' s hq hk => ?_) hmet) ?_ ?_
      · rw [hreq]
        obtain ⟨m, rfl, -⟩ := hq
        exact ⟨rfl, hk ▸ hlist.append m⟩
      · rintro a h' l' ⟨rfl, hb, -⟩
        exact ⟨rfl, hb, by simp⟩
      · rintro e h' l' ⟨rfl, hb, -⟩
        exact .last (rollback fun σ _ _ => .ret ⟨rfl, hb.snoc ⟨rfl, rfl⟩, by simp⟩)
    refine hone.bind ?_ ?_
    · rintro - h' l' ⟨rfl, hb, -⟩
      refine (ih fun x hx => ?_).mono fun r h' l'' ⟨hh, hb', he⟩ => ⟨hh, hb.trans hb', he⟩
      obtain ⟨hx₁, hx₂⟩ := hrows x (List.mem_cons_of_mem _ hx)
      exact ⟨hx₁.mono hb, hx₂.mono hb⟩
    · rintro e h' l' ⟨-, -, he⟩
      exact absurd rfl (he e)

theorem runSweep (hreq : req t = .runSweep) :
    Triple owner req d₀ t .nothing l Scheduler.runSweep (SweepPost l) := by
  unfold Scheduler.runSweep
  refine query fun σ hi ha => ⟨_, ha, ?_⟩
  rw [ha.view_nothing]
  have hb (r) : Balanced l (l ++ [σ.event t (.query .staleSessions) r σ.data]) :=
    (Balanced.refl l).snoc ⟨rfl, rfl⟩
  cases hq : Query.eval (σ.ctx t) σ.catalog σ.data .staleSessions with
  | error e => exact .raise ⟨rfl, hb _, fun _ he => ⟨e, (Except.error.inj he).symm⟩⟩
  | ok rows =>
    refine (sweepRows hreq rows fun row hrow => ?_).mono fun r h' l' ⟨hh, hb', he⟩ =>
      ⟨hh, (hb _).trans hb', he⟩
    obtain ⟨s, hs, rs, hrs, hk, hr, hrr, -, hlt⟩ := stale_of_mem hq hrow
    have hlook : lookup row.id σ.data.sessions = some s := hk ▸ hi.ok.mem_sessions.mp hs
    have hmem (r) : σ.event t (.query .staleSessions) r σ.data ∈
        l ++ [σ.event t (.query .staleSessions) r σ.data] := List.mem_append_right _ List.mem_cons_self
    exact ⟨⟨_, hmem _, rfl, s, hlook, rs, hrs, hrr, hlt⟩, ⟨_, hmem _, s, hlook, hr⟩⟩

end Triple

end QOrder
