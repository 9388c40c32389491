import QOrder.OwnLogic

/-! Finding and opening the session of a table. -/

namespace QOrder

open KeyedTable Concurrency

variable {n : Nat} {owner : Uuid → Uuid} {req : Fin n → Request} {d₀ d : Data} {σ : Sys n}
  {t : Fin n} {h : Holding} {l l' : List (Event n)} {α : Type}

/-- `l'` extends `l` by events that commit nothing. -/
def Quiet (l l' : List (Event n)) : Prop := ∃ m, l' = l ++ m ∧ commitsOf m = []

theorem Quiet.refl (l : List (Event n)) : Quiet l l := ⟨[], by simp, rfl⟩

theorem Quiet.snoc {e : Event n} (hq : Quiet l l') (he : e.isCommit = false) :
    Quiet l (l' ++ [e]) := by
  obtain ⟨m, rfl, hm⟩ := hq
  exact ⟨m ++ [e], by simp, by simp [hm, he]⟩

theorem Quiet.trans {l'' : List (Event n)} (hq : Quiet l l') (hq' : Quiet l' l'') : Quiet l l'' := by
  obtain ⟨m, rfl, hm⟩ := hq
  obtain ⟨m', rfl, hm'⟩ := hq'
  exact ⟨m ++ m', by simp, by simp [hm, hm']⟩

theorem Quiet.commitsOf (hq : Quiet l l') : commitsOf l' = commitsOf l := by
  obtain ⟨m, rfl, hm⟩ := hq
  simp [hm]

theorem Quiet.seenOpen {tableId k : Uuid} (hq : Quiet l l') (hs : SeenOpen tableId k l) :
    SeenOpen tableId k l' := by
  obtain ⟨m, rfl, hm⟩ := hq
  exact hs.append hm

/-- Neither rows that do not fit what a query expects of them, nor a lost race. -/
def Exn.Ordinary : Exn → Prop
  | multipleResultsFound | noResultFound | runtimeError _ => False
  | _ => True

/-- The client has met an open session of the table, and later none. -/
def Lost (tableId : Uuid) (l : List (Event n)) : Prop :=
  ∃ l₁ e l₂ e' l₃, l = l₁ ++ e :: (l₂ ++ e' :: l₃) ∧ ¬ e.after.NoOpen tableId ∧
    e'.before.NoOpen tableId

theorem openSessions_eq (hd : d.Ok owner) (tableId : Uuid) :
    d.NoOpen tableId ∧ (d.sessions.filter fun s => s.tableId == tableId && s.status == .opened) = [] ∨
      ∃ s ∈ d.sessions, s.tableId = tableId ∧ s.status = .opened ∧
        (d.sessions.filter fun s => s.tableId == tableId && s.status == .opened) = [s] := by
  have hm {s : TableSession} : s ∈ d.sessions.filter (fun s => s.tableId == tableId && s.status == .opened) ↔
      s ∈ d.sessions ∧ s.tableId = tableId ∧ s.status = .opened := by simp
  by_cases hno : d.NoOpen tableId
  · refine .inl ⟨hno, List.eq_nil_iff_forall_not_mem.mpr fun s hs => ?_⟩
    obtain ⟨hs, ht, ho⟩ := hm.mp hs
    exact hno s hs ht ho
  · simp only [Data.NoOpen, not_forall, not_not] at hno
    obtain ⟨s, hs, ht, ho⟩ := hno
    refine .inr ⟨s, hs, ht, ho, eq_singleton_of_forall ?_ ?_ (hm.mpr ⟨hs, ht, ho⟩)⟩
    · exact List.Nodup.filter _ (List.Nodup.of_map _ hd.sessionIds)
    · intro r hr
      obtain ⟨hr, ht', ho'⟩ := hm.mp hr
      exact hd.oneOpen s hs r hr ho ho' (ht'.trans ht.symm)

theorem At.rows_nothing (ha : At owner t .nothing l σ) (c : Command) :
    σ.rows t c = c.rows (σ.ctx t) σ.data := by rw [Sys.rows, ha.view_nothing]

/-- A command that violates nothing puts no second open session on a table. -/
theorem Command.index_free {ctx : Ctx} {c : Command} (hv : c.violation ctx d = none) {e : Uuid × Uuid}
    (he : e ∈ c.indexEntries ctx d) {s : TableSession} (hs : s ∈ d.sessions) (ht : s.tableId = e.1)
    (ho : s.status = .opened) : s.id = e.2 := by
  by_contra hne
  have hany : ((c.indexEntries ctx d).any fun e =>
      d.sessions.any fun s => s.tableId == e.1 && s.status == .opened && s.id != e.2) = true := by
    simp only [List.any_eq_true, Bool.and_eq_true, beq_iff_eq, bne_iff_ne]
    exact ⟨e, he, s, hs, ⟨ht, ho⟩, hne⟩
  simp [Command.violation, hany] at hv

theorem insertSession_violation {ctx : Ctx} {restaurantId tableId : Uuid} {openedBy : Option Uuid}
    {e : DbError}
    (hv : (Command.insertSession restaurantId tableId openedBy).violation ctx d = some e) :
    e = .uniqueViolation ∧ ¬ d.NoOpen tableId := by
  simp only [Command.violation, Command.indexEntries, List.any_cons, List.any_nil, Bool.or_false] at hv
  split at hv
  · rename_i hany
    simp only [List.any_eq_true, Bool.and_eq_true, beq_iff_eq] at hany
    obtain ⟨s, hs, ⟨ht, ho⟩, -⟩ := hany
    exact ⟨(Option.some.inj hv).symm, fun hn => hn s hs ht ho⟩
  · cases hv

namespace Triple

variable {post : Except Exn α → Holding → List (Event n) → Prop}

theorem findOpenSession {tableId : Uuid} {loaded : List TableSession}
    {f : Option TableSession → Action α}
    (hnone : ∀ e : Event n, e.isCommit = false → e.before.NoOpen tableId →
      Triple owner req d₀ t .nothing (l ++ [e]) (f none) post)
    (hsome : ∀ (e : Event n) s, e.isCommit = false → SeenOpen tableId s.id (l ++ [e]) →
      s.tableId = tableId → s.status = .opened → e.loads s.id = some s →
      Triple owner req d₀ t .nothing (l ++ [e]) (f (some (loadedInstance loaded s))) post) :
    Triple owner req d₀ t .nothing l (QOrder.findOpenSession tableId loaded >>= f) post := by
  simp only [QOrder.findOpenSession, bind_assoc]
  refine query fun σ hi ha => ⟨_, ha, ?_⟩
  rw [ha.view_nothing, Query.eval]
  rcases openSessions_eq hi.ok tableId with ⟨hno, he⟩ | ⟨s, hs, ht, ho, he⟩
  · simp only [he, Action.scalarOneOrNone, Prog.pure_def, Prog.ret_bind, Option.map_none]
    exact hnone _ rfl hno
  · simp only [he, Action.scalarOneOrNone, Prog.pure_def, Prog.ret_bind, Option.map_some]
    have hl := hi.ok.mem_sessions.mp hs
    exact hsome _ s rfl (.last (.inl rfl) hl ht ho) ht ho (by simp [Event.loads, Sys.event, hl, ht, ho])

/-- A command whose failure the program handles. -/
theorem attempt {c : Command} {f : Except DbError Data → Action α}
    (hpre : Allowed owner (req t) l h (.command c))
    (hok : ∀ σ, Inv owner req d₀ σ → At owner t h l σ → c.violation (σ.ctx t) (σ.view t) = none →
      ∃ h' : Holding,
        h'.writes (σ.now t) σ.data = (h.writes (σ.now t) σ.data).overlay (σ.rows t c) ∧
        h'.Valid owner (σ.now t) σ.data ∧
        Triple owner req d₀ t h' (l ++ [σ.event t (.command c) (.ok (σ.rows t c)) σ.data])
          (f (.ok (σ.rows t c))) post)
    (herr : ∀ σ e, Inv owner req d₀ σ → At owner t h l σ →
      c.violation (σ.ctx t) (σ.view t) = some e ∨ e = .operational →
      Triple owner req d₀ t .nothing (l ++ [σ.event t (.command c) (.error e) σ.data])
        (f (.error e)) post) :
    Triple owner req d₀ t h l ((Prog.attempt (Stmt.command c) : Action (Except DbError Data)) >>= f) post := by
  refine stmt hpre fun σ hi ha r σ' hx => ?_
  cases hx with
  | perform hb =>
    simp only [Sys.perform, Sys.answer]
    cases hv : c.violation (σ.ctx t) (σ.view t) with
    | some e => exact ⟨.nothing, _, ha.aborted, herr σ e hi ha (.inl hv)⟩
    | none =>
      obtain ⟨h', hw, hv', hp⟩ := hok σ hi ha hv
      exact ⟨h', _, ha.written hw hv', hp⟩
  | kill hq => exact ⟨.nothing, _, ha.aborted, herr σ .operational hi ha (.inr rfl)⟩

/-- What a call of `get_or_open` leaves behind. -/
def GotSession (tableId : Uuid) (l : List (Event n)) (r : Except Exn SessionService.Opened)
    (h' : Holding) (l' : List (Event n)) : Prop :=
  h' = .nothing ∧ l <+: l' ∧
    match r with
    | .ok opened => SeenOpen tableId opened.session.id l' ∧ opened.session.tableId = tableId ∧
      ∃ e ∈ l', e.loads opened.session.id = some opened.session
    | .error e => e.Ordinary ∨ (∃ message, e = .runtimeError message) ∧ Lost tableId l'

theorem recoverRace {tableId : Uuid} {m : List (Event n)} {e : Event n}
    (he : ¬ e.after.NoOpen tableId) :
    Triple owner req d₀ t .nothing (l ++ m ++ [e]) (SessionService.recoverRace tableId)
      (GotSession tableId l) := by
  unfold SessionService.recoverRace
  refine rollback fun σ hi ha => findOpenSession (fun e' _ hno => ?_) fun e' s _ hs ht _ hl => ?_
  · refine .raise ⟨rfl, by simp [List.append_assoc], .inr ⟨⟨_, rfl⟩, ?_⟩⟩
    exact ⟨l ++ m, e, [σ.event t .rollback (.ok ()) σ.data], e', [], by simp, he, hno⟩
  · exact .ret ⟨rfl, by simp [List.append_assoc], hs, ht, e', by simp, hl⟩

theorem commitNew {tableId : Uuid} {s : TableSession} {m : List (Event n)}
    (hl : commitsOf (l ++ m) = []) (hs : s.tableId = tableId) :
    Triple owner req d₀ t (.opening s) (l ++ m) (SessionService.commitNew { sessions := [s] })
      (GotSession tableId l) := by
  simp only [SessionService.commitNew, List.head?_cons, Action.scalarOne, Prog.pure_def,
    Prog.ret_bind]
  refine commit trivial hl fun σ hi ha => ?_
  refine query fun σ₁ hi₁ ha₁ => ⟨_, ha₁, ?_⟩
  have hlook : lookup s.id (σ.data.overlay ((Holding.opening s).writes (σ.now t) σ.data)).sessions =
      some s := by simp [Holding.writes, lookup_singleton]
  have hg := hi₁.own_grows ha₁ (List.mem_append_right _ List.mem_cons_self)
  obtain ⟨s', hs', ht, -⟩ := hg.session hlook
  rw [ha₁.view_nothing, Query.eval, hs']
  have hk : s'.id = s.id := key_of_lookup hs'
  refine .ret ⟨rfl, by simp [List.append_assoc], ?_, ht.trans hs, _, List.mem_append_right _ List.mem_cons_self, ?_⟩
  swap
  · simp [Event.loads, Sys.event, hk, hs']
  have hseen : SeenOpen tableId s.id (l ++ m ++ [σ.event t .commit (.ok ()) _]) :=
    .last (.inr rfl) hlook hs ha.valid.opened
  exact hk ▸ hseen.append rfl

theorem getOrOpen {tableId restaurantId : Uuid} {openedBy : Option Uuid}
    (hr : restaurantId = owner tableId) (hl : commitsOf l = []) :
    Triple owner req d₀ t .nothing l (SessionService.getOrOpen tableId restaurantId openedBy)
      (GotSession tableId l) := by
  unfold SessionService.getOrOpen
  refine findOpenSession (fun e he hno => ?_) fun e s _ hs ht _ hl => ?_
  · refine attempt rfl (fun σ hi ha hv => ?_) fun σ e' hi ha hv => ?_
    · have hno' : σ.data.NoOpen tableId := by
        intro s hs ht ho
        have hid := Command.index_free hv (e := (tableId, σ.nextUuid)) (by simp [Command.indexEntries, Sys.ctx])
          (by rwa [ha.view_nothing]) ht ho
        exact absurd (hi.below.sessions s hs) (by simp [hid])
      have hnew : lookup σ.nextUuid σ.data.sessions = none :=
        lookup_eq_none.mpr fun s hs he => absurd (hi.below.sessions s hs) (by simpa using he.ge)
      refine ⟨.opening _, by simp [Holding.writes, Sys.rows, Command.rows]; rfl, ?_, ?_⟩
      · exact ⟨hnew, hr, rfl, ⟨rfl, rfl, rfl⟩, rfl, hno'⟩
      · rw [List.append_assoc]
        refine commitNew ?_ rfl
        simp [hl, he]
    · rcases hv with hv | rfl
      · obtain ⟨rfl, hno'⟩ := insertSession_violation hv
        exact recoverRace (by rwa [ha.view_nothing] at hno')
      · exact .raise ⟨rfl, by simp [List.append_assoc], .inl trivial⟩
  · exact .ret ⟨rfl, by simp, hs, ht, e, by simp, hl⟩

end Triple

end QOrder
