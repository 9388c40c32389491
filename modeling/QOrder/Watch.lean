import QOrder.Transactions

/-! The program logic over a client's own events, for the clients of a run. It follows
one client from its first statement on, whatever it holds and whatever the others do. -/

namespace QOrder

open KeyedTable Concurrency

variable {n : Nat} {owner : Uuid → Uuid} {req : Fin n → Request} {D : Deployment owner} {d₀ : Data}
  {p p' : Clients n} {t : Fin n} {l : List (Event n)} {e : Event n} {α β : Type}

/-- After the events `l`, the statement `q` of `t` may be answered by `r`, recorded as `e`. -/
def Answered (owner : Uuid → Uuid) (req : Fin n → Request) (d₀ : Data) (t : Fin n)
    (l : List (Event n)) (q : Stmt) (r : Except DbError q.Resp) (e : Event n) : Prop :=
  ∃ σ σ', Inv owner req d₀ σ ∧ σ.Tracks t ∧ own t σ.history = l ∧ Exec t q σ r σ' ∧
    e = σ.event t q r σ'.data

/-- `I` holds wherever `t` executes a statement of the program, and `post` at its end,
as long as its events satisfy `V`. -/
abbrev Watch (owner : Uuid → Uuid) (req : Fin n → Request) (d₀ : Data) (t : Fin n)
    (V : Event n → Prop) (I : List (Event n) → Stmt → Prop) (p : Action α)
    (post : Except Exn α → List (Event n) → Prop) (l : List (Event n)) : Prop :=
  Along (fun l q r e => Answered owner req d₀ t l q r e ∧ V e) I p post l

/-- The statement was aborted by the database, not for what it says. -/
def Event.killed (e : Event n) : Bool :=
  match e.resp with
  | .error .operational => true
  | _ => false

/-- An error that rows missing from a query would lead to. -/
def Exn.Irregular (e : Exn) : Prop := ¬ e.Ordinary ∧ ∀ message, e ≠ .runtimeError message

theorem Exn.irregular_noResultFound : Exn.Irregular .noResultFound :=
  ⟨id, fun _ h => by cases h⟩

abbrev anyEvent (_ : Event n) : Prop := True

abbrev anywhere (_ : List (Event n)) (_ : Stmt) : Prop := True

namespace Watch

variable {V : Event n → Prop} {I : List (Event n) → Stmt → Prop} {post : Except Exn β → List (Event n) → Prop}

/-- A statement that nothing aborts. -/
theorem sure {q : Stmt} {f : q.Resp → Action β} (a : Sys n → q.Resp) (hc : q.isCommand = false)
    (ha : ∀ σ : Sys n, (σ.answer t q).1 = .ok (a σ)) (hi : I l q)
    (hk : ∀ σ, Inv owner req d₀ σ → σ.Tracks t → own t σ.history = l →
      V (σ.event t q (.ok (a σ)) (σ.answer t q).2.data) →
      Watch owner req d₀ t V I (f (a σ)) post
        (l ++ [σ.event t q (.ok (a σ)) (σ.answer t q).2.data])) :
    Watch owner req d₀ t V I (Prog.call Exn.db q >>= f) post l := by
  have answered {σ σ' : Sys n} {r : Except DbError q.Resp} (hx : Exec t q σ r σ') :
      r = .ok (a σ) ∧ σ'.data = (σ.answer t q).2.data := by
    cases hx with
    | kill hq =>
      rw [hc] at hq
      cases hq
    | perform hb => exact ⟨ha σ, rfl⟩
  refine Along.call hi ?_ ?_
  · rintro b v ⟨⟨σ, σ', hinv, ht, hl, hx, rfl⟩, hv⟩
    obtain ⟨hr, hd⟩ := answered hx
    cases hr
    rw [hd] at hv ⊢
    exact hk σ hinv ht hl hv
  · rintro e v ⟨⟨σ, σ', hinv, ht, hl, hx, rfl⟩, hv⟩
    cases (answered hx).1

theorem query {q : Query} {f : q.Resp → Action β} (hi : I l (.query q))
    (hk : ∀ σ, Inv owner req d₀ σ → σ.Tracks t → own t σ.history = l →
      V (σ.event t (.query q) (.ok (q.eval (σ.ctx t) σ.catalog (σ.view t))) σ.data) →
      Watch owner req d₀ t V I (f (q.eval (σ.ctx t) σ.catalog (σ.view t))) post
        (l ++ [σ.event t (.query q) (.ok (q.eval (σ.ctx t) σ.catalog (σ.view t))) σ.data])) :
    Watch owner req d₀ t V I (Action.query q >>= f) post l :=
  sure (fun σ => q.eval (σ.ctx t) σ.catalog (σ.view t)) rfl (fun _ => rfl) hi hk

theorem commit {f : Unit → Action β} (hi : I l .commit)
    (hk : ∀ σ, Inv owner req d₀ σ → σ.Tracks t → own t σ.history = l →
      V (σ.event t .commit (.ok ()) (σ.view t)) →
      Watch owner req d₀ t V I (f ()) post (l ++ [σ.event t .commit (.ok ()) (σ.view t)])) :
    Watch owner req d₀ t V I (Action.commit >>= f) post l :=
  sure (fun _ => ()) rfl (fun _ => rfl) hi hk

theorem rollback {f : Unit → Action β} (hi : I l .rollback)
    (hk : ∀ σ, Inv owner req d₀ σ → σ.Tracks t → own t σ.history = l →
      V (σ.event t .rollback (.ok ()) σ.data) →
      Watch owner req d₀ t V I (f ()) post (l ++ [σ.event t .rollback (.ok ()) σ.data])) :
    Watch owner req d₀ t V I (Action.rollback >>= f) post l :=
  sure (fun _ => ()) rfl (fun _ => rfl) hi hk

theorem appNow {f : Timestamp → Action β} (hi : I l .appNow)
    (hk : ∀ σ, Inv owner req d₀ σ → σ.Tracks t → own t σ.history = l →
      V (σ.event t .appNow (.ok σ.appClock) σ.data) →
      Watch owner req d₀ t V I (f σ.appClock) post
        (l ++ [σ.event t .appNow (.ok σ.appClock) σ.data])) :
    Watch owner req d₀ t V I (Action.appNow >>= f) post l :=
  sure Sys.appClock rfl (fun _ => rfl) hi hk

theorem publish {channel : Channel} {event : RealtimeEvent} {f : Unit → Action β}
    (hi : I l (.publish channel event))
    (hk : ∀ σ, Inv owner req d₀ σ → σ.Tracks t → own t σ.history = l →
      V (σ.event t (.publish channel event) (.ok ()) σ.data) →
      Watch owner req d₀ t V I (f ()) post
        (l ++ [σ.event t (.publish channel event) (.ok ()) σ.data])) :
    Watch owner req d₀ t V I (Action.publish channel event >>= f) post l :=
  sure (fun _ => ()) rfl (fun _ => rfl) hi hk

theorem exec_command {c : Command} {σ σ' : Sys n} {r : Except DbError (Stmt.Resp (.command c))}
    (hx : Exec t (.command c) σ r σ') : σ'.data = σ.data ∧
      ((r = .ok (σ.rows t c) ∧ c.violation (σ.ctx t) (σ.view t) = none) ∨
        ∃ e, r = .error e ∧ (c.violation (σ.ctx t) (σ.view t) = some e ∨ e = .operational)) := by
  cases hx with
  | kill hq => exact ⟨rfl, .inr ⟨_, rfl, .inr rfl⟩⟩
  | perform hb =>
    simp only [Sys.perform, Sys.answer]
    cases hv : c.violation (σ.ctx t) (σ.view t) with
    | some e => exact ⟨rfl, .inr ⟨e, rfl, .inl rfl⟩⟩
    | none => exact ⟨rfl, .inl ⟨rfl, rfl⟩⟩

/-- A command whose failure the program handles. -/
theorem attempt {c : Command} {f : Except DbError Data → Action β} (hi : I l (.command c))
    (hok : ∀ σ, Inv owner req d₀ σ → σ.Tracks t → own t σ.history = l →
      c.violation (σ.ctx t) (σ.view t) = none →
      V (σ.event t (.command c) (.ok (σ.rows t c)) σ.data) →
      Watch owner req d₀ t V I (f (.ok (σ.rows t c))) post
        (l ++ [σ.event t (.command c) (.ok (σ.rows t c)) σ.data]))
    (herr : ∀ σ e, Inv owner req d₀ σ → σ.Tracks t → own t σ.history = l →
      c.violation (σ.ctx t) (σ.view t) = some e ∨ e = .operational →
      V (σ.event t (.command c) (.error e) σ.data) →
      Watch owner req d₀ t V I (f (.error e)) post
        (l ++ [σ.event t (.command c) (.error e) σ.data])) :
    Watch owner req d₀ t V I
      ((Prog.attempt (Stmt.command c) : Action (Except DbError Data)) >>= f) post l := by
  refine Along.attempt hi ?_
  rintro r v ⟨⟨σ, σ', hinv, ht, hl, hx, rfl⟩, hv⟩
  obtain ⟨hd, ⟨rfl, hc⟩ | ⟨e, rfl, hc⟩⟩ := exec_command hx
  · rw [hd] at hv ⊢
    exact hok σ hinv ht hl hc hv
  · rw [hd] at hv ⊢
    exact herr σ e hinv ht hl hc hv

/-- A command whose failure is raised. -/
theorem command {c : Command} {f : Data → Action β} (hi : I l (.command c))
    (hok : ∀ σ, Inv owner req d₀ σ → σ.Tracks t → own t σ.history = l →
      c.violation (σ.ctx t) (σ.view t) = none →
      V (σ.event t (.command c) (.ok (σ.rows t c)) σ.data) →
      Watch owner req d₀ t V I (f (σ.rows t c)) post
        (l ++ [σ.event t (.command c) (.ok (σ.rows t c)) σ.data]))
    (herr : ∀ σ e, Inv owner req d₀ σ → σ.Tracks t → own t σ.history = l →
      c.violation (σ.ctx t) (σ.view t) = some e ∨ e = .operational →
      V (σ.event t (.command c) (.error e) σ.data) →
      post (.error (.db e)) (l ++ [σ.event t (.command c) (.error e) σ.data])) :
    Watch owner req d₀ t V I (Action.command c >>= f) post l := by
  refine ⟨hi, ?_⟩
  rintro r v ⟨⟨σ, σ', hinv, ht, hl, hx, rfl⟩, hv⟩
  obtain ⟨hd, ⟨rfl, hc⟩ | ⟨e, rfl, hc⟩⟩ := exec_command hx
  · rw [hd] at hv ⊢
    exact hok σ hinv ht hl hc hv
  · rw [hd] at hv ⊢
    exact herr σ e hinv ht hl hc hv

/-- A command that violates nothing, of a client whose statements are not aborted. -/
theorem command_sure {c : Command} {f : Data → Action β} (hi : I l (.command c))
    (halive : ∀ e, V e → e.killed = false)
    (hv : ∀ σ x, Inv owner req d₀ σ → σ.Tracks t → own t σ.history = l →
      V (σ.event t (.command c) (.error x) σ.data) → c.violation (σ.ctx t) (σ.view t) = none)
    (hok : ∀ σ, Inv owner req d₀ σ → σ.Tracks t → own t σ.history = l →
      Watch owner req d₀ t V I (f (σ.rows t c)) post
        (l ++ [σ.event t (.command c) (.ok (σ.rows t c)) σ.data])) :
    Watch owner req d₀ t V I (Action.command c >>= f) post l := by
  refine command hi (fun σ hinv ht hl _ _ => hok σ hinv ht hl) fun σ x hinv ht hl hc hx => ?_
  rcases hc with hc | rfl
  · rw [hv σ x hinv ht hl hx] at hc
    cases hc
  · cases halive _ hx

theorem translate {p : Action α} {g : Exn → Exn} {post post' : Except Exn α → List (Event n) → Prop}
    (h : Watch owner req d₀ t V I p post l) (hok : ∀ a l', post (.ok a) l' → post' (.ok a) l')
    (herr : ∀ e l', post (.error e) l' → post' (.error (g e)) l') :
    Watch owner req d₀ t V I (QOrder.translate g p) post' l :=
  Along.tryCatch h hok herr

end Watch

section Runs

variable {V : Event n → Prop} {I : List (Event n) → Stmt → Prop}
  {post : Except Exn Response → List (Event n) → Prop}

/-- What holds along the handler of a client holds along the events of every run. -/
theorem Deployment.Reaches.watch (hr : D.Reaches req p) (hv : ∀ e ∈ own t p.state.history, V e)
    (hw : Watch owner req D.data t V I (req t).handler post []) :
    Watch owner req D.data t V I (p.threads t) post (own t p.state.history) := by
  induction hr with
  | refl => exact hw
  | @tail p₁ p₂ hr₁ hs ih =>
    cases hs with
    | env he => cases he <;> exact ih hv
    | @exec u q k r σ' hp hx =>
      have hreach : D.Reaches req p₁ := hr₁
      have hh : σ'.history = p₁.state.history ++ [p₁.state.event u q r σ'.data] := by
        cases hx <;> rfl
      by_cases hu : u = t
      · subst hu
        rw [hh, own_self] at hv
        have hw₁ := ih fun e he => hv e (List.mem_append_left _ he)
        rw [hp] at hw₁
        have hnext := hw₁.2 r _ ⟨⟨p₁.state, σ', hreach.inv, hreach.tracks u, rfl, hx, rfl⟩,
          hv _ (List.mem_append_right _ List.mem_cons_self)⟩
        rw [← own_self, ← hh] at hnext
        simpa only [Function.update_self] using hnext
      · simp only [hh, own_other hu] at hv
        simp only [Function.update_of_ne (Ne.symm hu), hh, own_other hu]
        exact ih hv

theorem Deployment.Reaches.watched (hr : D.Reaches req p) (hv : ∀ e ∈ own t p.state.history, V e)
    (hw : Watch owner req D.data t V I (req t).handler post []) {res : Except Exn Response}
    (ha : (p.threads t).answer = some res) : post res (own t p.state.history) := by
  have hend := hr.watch hv hw
  cases res with
  | ok a =>
    rw [Prog.answer_ok ha] at hend
    exact hend
  | error e =>
    rw [Prog.answer_error ha] at hend
    exact hend

/-- Every event of the client was executed where `I` holds. -/
theorem Deployment.Reaches.guarded (hr : D.Reaches req p) (hv : ∀ e ∈ own t p.state.history, V e)
    (hw : Watch owner req D.data t V I (req t).handler post []) {hb ha : List (Event n)}
    (hh : p.state.history = hb ++ e :: ha) (hc : e.client = t) : I (own t hb) e.stmt := by
  obtain ⟨p₀, q, k, r, σ', hr₀, rfl, hp, hx, he, -⟩ := hr.replay hh
  have h₀ := hr₀.watch (fun x hx => hv x (by rw [hh, own_append]; exact List.mem_append_left _ hx)) hw
  subst hc
  rw [hp] at h₀
  have hq : e.stmt = q := congrArg Event.stmt he
  rw [hq]
  exact h₀.1

theorem Deployment.Reaches.wrapped (hr : D.Reaches req p) {a : Action α} {wrap : α → Response}
    {post : Except Exn α → List (Event n) → Prop} {res : Except Exn Response} (hh : (req t).handler = a >>= fun b => pure (wrap b))
    (hv : ∀ e ∈ own t p.state.history, V e) (hw : Watch owner req D.data t V I a post [])
    (ha : (p.threads t).answer = some res) :
    (∃ b, res = .ok (wrap b) ∧ post (.ok b) (own t p.state.history)) ∨
      ∃ e, res = .error e ∧ post (.error e) (own t p.state.history) := by
  have hend : Watch owner req D.data t V I (req t).handler (fun res l =>
      (∃ b, res = .ok (wrap b) ∧ post (.ok b) l) ∨ ∃ e, res = .error e ∧ post (.error e) l) [] := by
    rw [hh]
    exact Along.bind hw (fun b l' hb => .inl ⟨b, rfl, hb⟩) fun e l' he => .inr ⟨e, rfl, he⟩
  exact hr.watched hv hend ha

theorem Deployment.Reaches.not_irregular (hr : D.Reaches req p) {e : Exn}
    (ha : (p.threads t).answer = some (.error e)) : ¬ e.Irregular := by
  rintro ⟨hno, hne⟩
  have hf : Fails (req t) e (own t p.state.history) := (hr.kept.ended ha).2
  rcases hf.cause with ho | ⟨⟨message, rfl⟩, -⟩
  · exact hno ho
  · exact hne message rfl

end Runs

end QOrder
