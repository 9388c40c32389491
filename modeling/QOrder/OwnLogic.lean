import QOrder.Invariant

/-! A program logic over what a client holds and its own events. The others leave both
as they are, so a program is proved along its own statements. -/

namespace QOrder

open KeyedTable Concurrency

variable {n : Nat} {owner : Uuid → Uuid} {req : Fin n → Request} {d₀ : Data} {σ σ' : Sys n}
  {t u : Fin n} {h h' : Holding} {l : List (Event n)} {α β : Type}

section Stable

theorem At.now_eq (ha : At owner t h l σ) (hw : σ'.data = σ.data) (ht : σ'.writes t = σ.writes t)
    (hb : σ'.began t = σ.began t) (hl : QOrder.own t σ'.history = l) : At owner t h l σ' := by
  rcases ha.began with rfl | hs
  · exact ⟨hl, by rw [ht, ha.writes]; rfl, trivial, .inl rfl⟩
  · obtain ⟨now, hn⟩ := Option.isSome_iff_exists.mp hs
    have he : σ'.now t = σ.now t := by simp [Sys.now, hb, hn]
    exact ⟨hl, by rw [ht, he, hw, ha.writes], by rw [he, hw]; exact ha.valid, .inr (by rw [hb, hn]; rfl)⟩

theorem own_other (hu : u ≠ t) (q : Stmt) (r : Except DbError q.Resp) (d : Data) :
    own t (σ.history ++ [σ.event u q r d]) = own t σ.history := by
  rw [own_append]
  simp [own, Sys.event, hu]

theorem own_self (q : Stmt) (r : Except DbError q.Resp) (d : Data) :
    own t (σ.history ++ [σ.event t q r d]) = own t σ.history ++ [σ.event t q r d] := by
  rw [own_append]
  simp [own, Sys.event]

theorem At.moves (ha : At owner t h l σ) (hu : u ≠ t) (hm : σ.Moves u σ') {q : Stmt}
    (r : Except DbError q.Resp) : At owner t h l (σ.record u q r σ') :=
  ha.now_eq hm.data (hm.writes t hu.symm) (hm.began t hu.symm) ((own_other hu ..).trans ha.own)

theorem At.other_commit (hi : Inv owner req d₀ σ) (ha : At owner t h l σ) (hu : u ≠ t)
    {l' : List (Event n)} (hu' : At owner u h' l' σ) (hc : h'.Complete) :
    At owner t h l (σ.record u .commit (.ok ()) (σ.commit u)) := by
  have hsep := hi.separate t
  have hst := Holding.stable hi.ok ha.valid hu'.valid hc
    (by rw [← ha.writes, ← hu'.writes]; exact hsep.disjoint u hu)
    (by rw [← ha.writes, ← hu'.writes]; exact hsep.index u hu)
  have hdata : (σ.commit u).data = σ.data.overlay (h'.writes (σ.now u) σ.data) := by
    simp only [Sys.commit, Sys.view, hu'.writes]
  have hwrites : (σ.commit u).writes t = σ.writes t := by simp [Sys.commit, hu.symm]
  have hnow : (σ.commit u).now t = σ.now t := by simp [Sys.commit, Sys.now, hu.symm]
  have hbegan : (σ.commit u).began t = σ.began t := by simp [Sys.commit, hu.symm]
  refine ⟨(own_other hu ..).trans ha.own, ?_, ?_, ?_⟩
  · show (σ.commit u).writes t = h.writes ((σ.commit u).now t) (σ.commit u).data
    rw [hwrites, hnow, hdata, hst.2, ha.writes]
  · show h.Valid owner ((σ.commit u).now t) (σ.commit u).data
    rw [hnow, hdata]
    exact hst.1
  · exact ha.began.imp_right fun hs => by
      show ((σ.commit u).began t).isSome
      rw [hbegan, hs]

/-- What a client holds and its own events are stable under the steps of the others. -/
theorem at_stable : (discipline owner req d₀).Stable t (At owner t h l) := by
  rintro σ σ' ⟨hi, -, he | ⟨u, q, r, hu, hpre, hx⟩⟩ ha
  · cases he with
    | tick => exact ha.now_eq rfl rfl rfl ha.own
    | edit => exact ha.now_eq rfl rfl rfl ha.own
  · cases hx with
    | kill => exact ha.moves hu moves_abort _
    | perform hb =>
      cases q with
      | query q => exact ha.moves hu moves_begin _
      | command c =>
        simp only [Sys.perform, Sys.answer]
        cases c.violation (σ.ctx u) (σ.view u) with
        | some e => exact ha.moves hu moves_abort _
        | none => exact ha.moves hu moves_write _
      | commit =>
        obtain ⟨h', hu', hc, -⟩ := hpre
        exact ha.other_commit hi hu hu' hc
      | rollback => exact ha.moves hu moves_abort _
      | appNow => exact ha.moves hu moves_refl _
      | publish => exact ha.moves hu moves_refl _

end Stable

section Own

variable {q : Stmt} {r : Except DbError q.Resp} {c : Command}

theorem At.view (ha : At owner t h l σ) :
    σ.view t = σ.data.overlay (h.writes (σ.now t) σ.data) := by rw [Sys.view, ha.writes]

theorem At.view_nothing (ha : At owner t .nothing l σ) : σ.view t = σ.data := by
  rw [ha.view]
  simp [Holding.writes]

theorem At.began_now (ha : At owner t h l σ) :
    At owner t h (l ++ [σ.event t q r σ.data]) (σ.record t q r (σ.begin_ t)) := by
  have hnow : (σ.begin_ t).now t = σ.now t := by simp [Sys.begin_, Sys.now]
  refine ⟨(own_self ..).trans (by rw [ha.own]; rfl), ?_, ?_, .inr ?_⟩
  · show σ.writes t = h.writes ((σ.begin_ t).now t) σ.data
    rw [hnow, ha.writes]
  · show h.Valid owner ((σ.begin_ t).now t) σ.data
    rw [hnow]
    exact ha.valid
  · simp [Sys.record, Sys.begin_]

theorem At.aborted (ha : At owner t h l σ) :
    At owner t .nothing (l ++ [σ.event t q r σ.data]) (σ.record t q r (σ.abort t)) :=
  ⟨(own_self ..).trans (by rw [ha.own]; rfl), by simp [Sys.record, Sys.abort, Holding.writes],
    trivial, .inl rfl⟩

theorem At.recorded (ha : At owner t h l σ) :
    At owner t h (l ++ [σ.event t q r σ.data]) (σ.record t q r σ) :=
  ⟨(own_self ..).trans (by rw [ha.own]), ha.writes, ha.valid, ha.began⟩

theorem At.written (ha : At owner t h l σ) {r : Except DbError Data}
    (hw : h'.writes (σ.now t) σ.data = (h.writes (σ.now t) σ.data).overlay (σ.rows t c))
    (hv : h'.Valid owner (σ.now t) σ.data) :
    At owner t h' (l ++ [σ.event t (.command c) r σ.data])
      (σ.record t (.command c) r (σ.write t c)) := by
  have hnow : (σ.write t c).now t = σ.now t := by simp [Sys.write, Sys.begin_, Sys.now]
  refine ⟨(own_self ..).trans (by rw [ha.own]; rfl), ?_, ?_, .inr ?_⟩
  · show (σ.write t c).writes t = h'.writes ((σ.write t c).now t) σ.data
    rw [hnow, hw, ← ha.writes]
    simp [Sys.write]
  · show h'.Valid owner ((σ.write t c).now t) σ.data
    rw [hnow]
    exact hv
  · simp [Sys.record, Sys.write, Sys.begin_]

theorem At.committed (ha : At owner t h l σ) :
    At owner t .nothing
      (l ++ [σ.event t .commit (.ok ()) (σ.data.overlay (h.writes (σ.now t) σ.data))])
      (σ.record t .commit (.ok ()) (σ.commit t)) := by
  refine ⟨(own_self ..).trans ?_, by simp [Sys.record, Sys.commit, Holding.writes], trivial, .inl rfl⟩
  simp only [ha.own, Sys.commit, ha.view]

end Own

/-- Run by `t` from `h` and `l`, the program keeps to the discipline and ends in `post`. -/
def Triple (owner : Uuid → Uuid) (req : Fin n → Request) (d₀ : Data) (t : Fin n) (h : Holding)
    (l : List (Event n)) (p : Action α)
    (post : Except Exn α → Holding → List (Event n) → Prop) : Prop :=
  ∀ σ, Inv owner req d₀ σ → At owner t h l σ →
    (discipline owner req d₀).Safe t p (fun r σ' => ∃ h' l', At owner t h' l' σ' ∧ post r h' l') σ

namespace Triple

variable {p : Action α} {post post' : Except Exn α → Holding → List (Event n) → Prop}

theorem ret {a : α} (hp : post (.ok a) h l) : Triple owner req d₀ t h l (.ret a) post :=
  fun _ _ ha => Discipline.Safe.ret at_stable ha fun _ _ ha' => ⟨h, l, ha', hp⟩

theorem raise {e : Exn} (hp : post (.error e) h l) : Triple owner req d₀ t h l (.raise e) post :=
  fun _ _ ha => Discipline.Safe.raise at_stable ha fun _ _ ha' => ⟨h, l, ha', hp⟩

theorem mono (hp : Triple owner req d₀ t h l p post) (hq : ∀ r h' l', post r h' l' → post' r h' l') :
    Triple owner req d₀ t h l p post' :=
  fun σ hi ha => (hp σ hi ha).mono fun r _ _ ⟨h', l', ha', hr⟩ => ⟨h', l', ha', hq r h' l' hr⟩

theorem bind {f : α → Action β} {post' : Except Exn β → Holding → List (Event n) → Prop}
    (hp : Triple owner req d₀ t h l p post)
    (hok : ∀ a h' l', post (.ok a) h' l' → Triple owner req d₀ t h' l' (f a) post')
    (herr : ∀ e h' l', post (.error e) h' l' → post' (.error e) h' l') :
    Triple owner req d₀ t h l (p >>= f) post' := by
  intro σ hi ha
  refine (hp σ hi ha).bind hi ?_ ?_
  · rintro a σ' hi' ⟨h', l', ha', hr⟩
    exact hok a h' l' hr σ' hi' ha'
  · rintro e σ' - ⟨h', l', ha', hr⟩
    exact ⟨h', l', ha', herr e h' l' hr⟩

theorem tryCatch {f : Exn → Action α} (hp : Triple owner req d₀ t h l p post)
    (hok : ∀ a h' l', post (.ok a) h' l' → post' (.ok a) h' l')
    (herr : ∀ e h' l', post (.error e) h' l' → Triple owner req d₀ t h' l' (f e) post') :
    Triple owner req d₀ t h l (p.tryCatch f) post' := by
  intro σ hi ha
  refine (hp σ hi ha).tryCatch hi ?_ ?_
  · rintro a σ' - ⟨h', l', ha', hr⟩
    exact ⟨h', l', ha', hok a h' l' hr⟩
  · rintro e σ' hi' ⟨h', l', ha', hr⟩
    exact herr e h' l' hr σ' hi' ha'

/-- A statement, by what each way of executing it leads to. -/
theorem stmt {q : Stmt} {k : Except DbError q.Resp → Action α}
    (hpre : Allowed owner (req t) l h q)
    (hk : ∀ σ, Inv owner req d₀ σ → At owner t h l σ → ∀ r σ', Exec t q σ r σ' →
      ∃ h' l', At owner t h' l' σ' ∧ Triple owner req d₀ t h' l' (k r) post) :
    Triple owner req d₀ t h l (.stmt q k) post := by
  intro σ _ ha
  refine Discipline.Safe.stmt at_stable ha fun σ₁ hi₁ ha₁ => ?_
  have hr : Ready owner req t q σ₁ := ⟨h, ha₁.own.symm ▸ ha₁, ha₁.own.symm ▸ hpre⟩
  refine ⟨hr, fun r σ₂ hx => ?_⟩
  obtain ⟨h', l', ha', hp'⟩ := hk σ₁ hi₁ ha₁ r σ₂ hx
  exact hp' σ₂ (hi₁.exec hr hx) ha'

/-- A query answers from the rows the client sees; its answer may show that the
client's writes amount to another holding. -/
theorem query {q : Query} {f : q.Resp → Action α}
    (hk : ∀ σ, Inv owner req d₀ σ → At owner t h l σ →
      ∃ h', At owner t h' l σ ∧ Triple owner req d₀ t h'
        (l ++ [σ.event t (.query q) (.ok (q.eval (σ.ctx t) σ.catalog (σ.view t))) σ.data])
        (f (q.eval (σ.ctx t) σ.catalog (σ.view t))) post) :
    Triple owner req d₀ t h l (Action.query q >>= f) post := by
  refine stmt trivial fun σ hi ha r σ' hx => ?_
  obtain ⟨h', ha', hp⟩ := hk σ hi ha
  cases hx with
  | perform hb => exact ⟨h', _, ha'.began_now, hp⟩
  | kill hq => cases hq

theorem command {c : Command} {f : Data → Action α}
    (hpre : Allowed owner (req t) l h (.command c))
    (hok : ∀ σ, Inv owner req d₀ σ → At owner t h l σ → σ.blocked t (.command c) = false →
      c.violation (σ.ctx t) (σ.view t) = none →
      ∃ h' : Holding,
        h'.writes (σ.now t) σ.data = (h.writes (σ.now t) σ.data).overlay (σ.rows t c) ∧
        h'.Valid owner (σ.now t) σ.data ∧
        Triple owner req d₀ t h' (l ++ [σ.event t (.command c) (.ok (σ.rows t c)) σ.data])
          (f (σ.rows t c)) post)
    (herr : ∀ σ e, Inv owner req d₀ σ → At owner t h l σ →
      post (.error (.db e)) .nothing (l ++ [σ.event t (.command c) (.error e) σ.data])) :
    Triple owner req d₀ t h l (Action.command c >>= f) post := by
  refine stmt hpre fun σ hi ha r σ' hx => ?_
  cases hx with
  | perform hb =>
    simp only [Sys.perform, Sys.answer]
    cases hv : c.violation (σ.ctx t) (σ.view t) with
    | some e => exact ⟨.nothing, _, ha.aborted, .raise (herr σ e hi ha)⟩
    | none =>
      obtain ⟨h', hw, hv', hp⟩ := hok σ hi ha hb hv
      exact ⟨h', _, ha.written hw hv', hp⟩
  | kill hq => exact ⟨.nothing, _, ha.aborted, .raise (herr σ .operational hi ha)⟩

theorem commit {f : Unit → Action α} (hc : h.Complete) (hj : Justified l h (req t))
    (hk : ∀ σ, Inv owner req d₀ σ → At owner t h l σ → Triple owner req d₀ t .nothing
      (l ++ [σ.event t .commit (.ok ()) (σ.data.overlay (h.writes (σ.now t) σ.data))])
      (f ()) post) :
    Triple owner req d₀ t h l (Action.commit >>= f) post := by
  refine stmt ⟨hc, hj⟩ fun σ hi ha r σ' hx => ?_
  cases hx with
  | perform hb => exact ⟨.nothing, _, ha.committed, hk σ hi ha⟩
  | kill hq => cases hq

theorem rollback {f : Unit → Action α}
    (hk : ∀ σ, Inv owner req d₀ σ → At owner t h l σ → Triple owner req d₀ t .nothing
      (l ++ [σ.event t .rollback (.ok ()) σ.data]) (f ()) post) :
    Triple owner req d₀ t h l (Action.rollback >>= f) post := by
  refine stmt trivial fun σ hi ha r σ' hx => ?_
  cases hx with
  | perform hb => exact ⟨.nothing, _, ha.aborted, hk σ hi ha⟩
  | kill hq => cases hq

theorem appNow {f : Timestamp → Action α}
    (hk : ∀ σ, Inv owner req d₀ σ → At owner t h l σ → Triple owner req d₀ t h
      (l ++ [σ.event t .appNow (.ok σ.appClock) σ.data]) (f σ.appClock) post) :
    Triple owner req d₀ t h l (Action.appNow >>= f) post := by
  refine stmt trivial fun σ hi ha r σ' hx => ?_
  cases hx with
  | perform hb => exact ⟨h, _, ha.recorded, hk σ hi ha⟩
  | kill hq => cases hq

theorem publish {channel : Channel} {event : RealtimeEvent} {f : Unit → Action α}
    (htold : Told owner (req t) l channel event)
    (hk : ∀ σ, Inv owner req d₀ σ → At owner t h l σ → Triple owner req d₀ t h
      (l ++ [σ.event t (.publish channel event) (.ok ()) σ.data]) (f ()) post) :
    Triple owner req d₀ t h l (Action.publish channel event >>= f) post := by
  refine stmt htold fun σ hi ha r σ' hx => ?_
  cases hx with
  | perform hb => exact ⟨h, _, ha.recorded, hk σ hi ha⟩
  | kill hq => cases hq

/-- The same message for the kitchen and for the session. -/
theorem publishBoth {restaurantId sessionId : Uuid} {event : RealtimeEvent} {f : Unit → Action α}
    (htold : Tells owner (req t) l restaurantId sessionId event)
    (hk : ∀ e e' : Event n, e.stmt = .publish (.kitchen restaurantId) event →
      e'.stmt = .publish (.session restaurantId sessionId) event →
      Triple owner req d₀ t h (l ++ [e] ++ [e']) (f ()) post) :
    Triple owner req d₀ t h l (Action.publish (.kitchen restaurantId) event >>= fun _ =>
      Action.publish (.session restaurantId sessionId) event >>= f) post := by
  refine publish (htold (.kitchen restaurantId) rfl) fun σ _ _ => publish ?_ fun σ' _ _ => hk _ _ rfl rfl
  exact (htold (.session restaurantId sessionId) ⟨rfl, rfl⟩).append _

/-- A program that ends in an action, read as that action and a return. -/
theorem last (hp : Triple owner req d₀ t h l (p >>= pure) post) :
    Triple owner req d₀ t h l p post := by
  rwa [bind_pure] at hp

end Triple

/-- A preorder that holds across every event holds from an event on. -/
theorem Inv.rel (hi : Inv owner req d₀ σ) {R : Data → Data → Prop} (hrefl : ∀ d, R d d)
    (htrans : ∀ {a b c}, R a b → R b c → R a c)
    (hr : ∀ hb e, Entry owner req hb e → R e.before e.after) {e : Event n} (he : e ∈ σ.history) :
    R e.after σ.data := by
  obtain ⟨hb, ha, heq⟩ := List.append_of_mem he
  have hf := hi.follows
  rw [heq] at hf
  refine hf.split.2.rel hrefl htrans fun x hx => ?_
  obtain ⟨a, b, rfl⟩ := List.append_of_mem hx
  exact hr _ x (hi.logged (hb ++ e :: a) x b (by simp [heq]))

theorem Entry.grows {hb : List (Event n)} {e : Event n} (hen : Entry owner req hb e) :
    e.before.Grows e.after := by
  cases hc : e.isCommit with
  | false => exact hen.other hc ▸ Data.Grows.refl _
  | true =>
    obtain ⟨h, hv, hcm, -, hafter⟩ := hen.commit hc
    rw [hafter]
    exact (Holding.fits hen.ok hv hcm).grows hen.ok

/-- Rows the client has met are still there. -/
theorem Inv.grows (hi : Inv owner req d₀ σ) {e : Event n} (he : e ∈ σ.history) :
    e.after.Grows σ.data :=
  hi.rel Data.Grows.refl Data.Grows.trans (fun _ _ hen => hen.grows) he

theorem Inv.own_grows (hi : Inv owner req d₀ σ) (ha : At owner t h l σ) {e : Event n} (he : e ∈ l) :
    e.after.Grows σ.data := by
  have hm : e ∈ own t σ.history := ha.own.symm ▸ he
  exact hi.grows (List.mem_of_mem_filter hm)

end QOrder
