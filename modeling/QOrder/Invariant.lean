import QOrder.Separation

/-! The discipline of the clients. Each executes a statement only under a valid
holding that allows it; then the committed data stay consistent, the write sets stay
apart, and the history accounts for every commit. -/

namespace QOrder

open KeyedTable Concurrency

variable {n : Nat}

structure Inv (owner : Uuid → Uuid) (req : Fin n → Request) (d₀ : Data) (σ : Sys n) : Prop where
  ok : σ.data.Ok owner
  owned : σ.catalog.Owned owner
  below : σ.data.Below σ.nextUuid
  writesBelow : ∀ t, (σ.writes t).Below σ.nextUuid
  separate : ∀ t, σ.Separate t (σ.writes t)
  began : ∀ t now, σ.began t = some now → now ≤ σ.clock
  past : ∀ e ∈ σ.history, e.clock ≤ σ.clock
  logged : Logged (Entry owner req) σ.history
  follows : Follows Event.before Event.after d₀ σ.history σ.data

/-- `t` holds `h`, and `l` are its events so far. -/
structure At (owner : Uuid → Uuid) (t : Fin n) (h : Holding) (l : List (Event n))
    (σ : Sys n) : Prop where
  own : own t σ.history = l
  writes : σ.writes t = h.writes (σ.now t) σ.data
  valid : h.Valid owner (σ.now t) σ.data
  began : h = .nothing ∨ (σ.began t).isSome

/-- `σ'` differs from `σ` at most in what concerns the transaction of `t`. -/
structure Sys.Moves (t : Fin n) (σ σ' : Sys n) : Prop where
  data : σ'.data = σ.data
  catalog : σ'.catalog = σ.catalog
  clock : σ'.clock = σ.clock
  writes : ∀ u, u ≠ t → σ'.writes u = σ.writes u
  began : ∀ u, u ≠ t → σ'.began u = σ.began u
  nextUuid : σ.nextUuid ≤ σ'.nextUuid

variable {owner : Uuid → Uuid} {req : Fin n → Request} {d₀ : Data} {σ σ' : Sys n} {t u : Fin n}
  {h : Holding} {l : List (Event n)} {q : Stmt} {r : Except DbError q.Resp} {c : Command}

/-- Where a client may execute a statement. -/
def Ready (owner : Uuid → Uuid) (req : Fin n → Request) (t : Fin n) (q : Stmt) (σ : Sys n) : Prop :=
  ∃ h, At owner t h (own t σ.history) σ ∧ Allowed owner (req t) (own t σ.history) h q

theorem Ready.listed (hr : Ready owner req t q σ) (k : Uuid)
    (hq : q = .command (.abandonSession k)) (hs : req t = .runSweep) :
    Listed k (own t σ.history) := by
  obtain ⟨h, -, ha⟩ := hr
  subst hq
  exact ha.2 hs

theorem Ready.told (hr : Ready owner req t q σ) (channel : Channel) (event : RealtimeEvent)
    (hq : q = .publish channel event) : Told owner (req t) (own t σ.history) channel event := by
  obtain ⟨h, -, ha⟩ := hr
  subst hq
  exact ha

theorem Inv.now_le (hi : Inv owner req d₀ σ) (t : Fin n) : σ.now t ≤ σ.clock := by
  cases hb : σ.began t with
  | none => simp [Sys.now, hb]
  | some now => simpa [Sys.now, hb] using hi.began t now hb

section Moves

theorem moves_refl : σ.Moves t σ := ⟨rfl, rfl, rfl, fun _ _ => rfl, fun _ _ => rfl, le_rfl⟩

theorem moves_begin : σ.Moves t (σ.begin_ t) where
  data := rfl
  catalog := rfl
  clock := rfl
  writes _ _ := rfl
  began u hu := by simp [Sys.begin_, Function.update_of_ne hu]
  nextUuid := le_rfl

theorem moves_abort : σ.Moves t (σ.abort t) where
  data := rfl
  catalog := rfl
  clock := rfl
  writes u hu := by simp [Sys.abort, Function.update_of_ne hu]
  began u hu := by simp [Sys.abort, Function.update_of_ne hu]
  nextUuid := le_rfl

theorem moves_write : σ.Moves t (σ.write t c) where
  data := rfl
  catalog := rfl
  clock := rfl
  writes u hu := by simp [Sys.write, Function.update_of_ne hu]
  began u hu := by simp [Sys.write, Sys.begin_, Function.update_of_ne hu]
  nextUuid := Nat.le_add_right ..

end Moves

theorem Sys.Separate.update {t u : Fin n} {w : Data} (hd : σ'.data = σ.data)
    (hw : ∀ v, v ≠ t → σ'.writes v = σ.writes v) (hwt : σ'.writes t = w)
    (ht : σ.Separate t w) (hu : σ.Separate u (σ.writes u)) :
    σ'.Separate u (σ'.writes u) := by
  by_cases hut : u = t
  · subst hut
    exact ⟨fun v hv => by rw [hw v hv, hwt]; exact ht.disjoint v hv,
      fun v hv => by rw [hw v hv, hwt, hd]; exact ht.index v hv⟩
  · rw [hw u hut]
    refine ⟨fun v hv => ?_, fun v hv => ?_⟩
    · by_cases hvt : v = t
      · rw [hvt, hwt]
        exact Data.overlaps_comm (ht.disjoint u hut)
      · rw [hw v hvt]
        exact hu.disjoint v hv
    · by_cases hvt : v = t
      · rw [hvt, hwt, hd]
        exact fun r hr r' hr' hp hp' => (ht.index u hut r' hr' r hr hp' hp).symm
      · rw [hw v hvt, hd]
        exact hu.index v hv

/-- The invariant after a statement that commits nothing. -/
theorem Inv.record (hi : Inv owner req d₀ σ) (hm : σ.Moves t σ')
    (hbelow : (σ'.writes t).Below σ'.nextUuid) (hsep : σ.Separate t (σ'.writes t))
    (hbegan : ∀ now, σ'.began t = some now → now ≤ σ.clock)
    (hq : (σ.event t q r σ.data).isCommit = false)
    (hready : Ready owner req t q σ) : Inv owner req d₀ (σ.record t q r σ') where
  ok := by simpa only [Sys.record, hm.data] using hi.ok
  owned := by simpa only [Sys.record, hm.catalog] using hi.owned
  below := by simpa only [Sys.record, hm.data] using hi.below.mono hm.nextUuid
  writesBelow u := by
    by_cases hu : u = t
    · exact hu ▸ hbelow
    · simpa only [Sys.record, hm.writes u hu] using (hi.writesBelow u).mono hm.nextUuid
  separate u := Sys.Separate.update hm.data hm.writes rfl hsep (hi.separate u)
  began u now hb := by
    simp only [Sys.record, hm.clock] at hb ⊢
    by_cases hu : u = t
    · exact hbegan now (hu ▸ hb)
    · exact hi.began u now (by rwa [hm.began u hu] at hb)
  past e he := by
    simp only [Sys.record, hm.clock] at he ⊢
    rcases List.mem_append.mp he with he | he
    · exact hi.past e he
    · rw [List.mem_singleton.mp he]
      exact le_rfl
  logged := by
    refine hi.logged.snoc ⟨hi.ok, hi.owned, hi.now_le t, hi.past, fun hc => ?_, fun _ => ?_,
      hready.listed, hready.told⟩
    · simp only [hm.data] at hc
      exact absurd hc (by simp [hq])
    · simp [Sys.event, hm.data]
  follows := by
    have hf := hi.follows.snoc (e := σ.event t q r σ'.data) rfl
    simpa only [Sys.record, Sys.event] using hf

theorem Inv.query (hi : Inv owner req d₀ σ) {q : Query} (hready : Ready owner req t (.query q) σ)
    (r : Except DbError q.Resp) : Inv owner req d₀ (σ.record t (.query q) r (σ.begin_ t)) := by
  refine hi.record moves_begin (hi.writesBelow t) (hi.separate t) ?_ rfl hready
  intro now hb
  simp only [Sys.begin_, Function.update_self, Option.some.injEq] at hb
  exact hb ▸ hi.now_le t

theorem Inv.abort (hi : Inv owner req d₀ σ) (hq : (σ.event t q r σ.data).isCommit = false)
    (hready : Ready owner req t q σ) : Inv owner req d₀ (σ.record t q r (σ.abort t)) := by
  refine hi.record moves_abort ?_ ?_ ?_ hq hready
  · simpa [Sys.abort] using Data.below_empty _
  · simpa [Sys.abort] using Sys.separate_empty σ t
  · simp [Sys.abort]

theorem Inv.write (hi : Inv owner req d₀ σ) (hb : σ.blocked t (.command c) = false)
    (hready : Ready owner req t (.command c) σ) (r : Except DbError Data) :
    Inv owner req d₀ (σ.record t (.command c) r (σ.write t c)) := by
  have hview : (σ.view t).Below σ.nextUuid := hi.below.overlay (hi.writesBelow t)
  refine hi.record moves_write ?_ ?_ ?_ rfl hready
  · simp only [Sys.write, Function.update_self]
    have hrows : (σ.rows t c).Below (σ.nextUuid + c.generated) := Command.rows_below hview c
    exact ((hi.writesBelow t).mono (Nat.le_add_right ..)).overlay hrows
  · simp only [Sys.write, Function.update_self]
    exact Sys.separate_rows hi.ok.sessionIds (hi.separate t) hb
  · intro now hb
    simp only [Sys.write, Sys.begin_, Function.update_self, Option.some.injEq] at hb
    exact hb ▸ hi.now_le t

theorem pending_commit {w : Data} {r : TableSession} (hr : lookup r.id w.sessions = none) :
    (σ.data.overlay w).Pending r ↔ σ.data.Pending r := by
  simp [Data.Pending, hr]

theorem Inv.commit (hi : Inv owner req d₀ σ) (ha : At owner t h (QOrder.own t σ.history) σ)
    (hc : h.Complete) (hj : Justified (QOrder.own t σ.history) h (req t)) :
    Inv owner req d₀ (σ.record t .commit (.ok ()) (σ.commit t)) where
  ok := by
    simpa only [Sys.record, Sys.commit, Sys.view, ha.writes] using h.commit_ok hi.ok ha.valid hc
  owned := hi.owned
  below := hi.below.overlay (hi.writesBelow t)
  writesBelow u := by
    by_cases hu : u = t
    · subst hu
      simpa [Sys.record, Sys.commit] using Data.below_empty _
    · simpa [Sys.record, Sys.commit, hu] using hi.writesBelow u
  separate u := by
    have hne {v : Fin n} (hv : v ≠ t) {r : TableSession} (hr : r ∈ (σ.writes v).sessions) :
        (σ.commit t).data.Pending r ↔ σ.data.Pending r :=
      pending_commit ((Data.overlaps_eq_false.mp ((hi.separate v).disjoint t hv.symm)).1 r hr)
    refine ⟨fun v hv => ?_, fun v hv r hr r' hr' hp hp' => ?_⟩
    · by_cases hut : u = t
      · simpa [Sys.record, Sys.commit, hut] using Data.empty_overlaps _
      · by_cases hvt : v = t
        · simpa [Sys.record, Sys.commit, hvt] using Data.overlaps_comm (Data.empty_overlaps _)
        · simpa [Sys.record, Sys.commit, hut, hvt] using (hi.separate u).disjoint v hv
    · by_cases hut : u = t
      · simp [Sys.record, Sys.commit, hut] at hr
      · by_cases hvt : v = t
        · simp [Sys.record, Sys.commit, hvt] at hr'
        · simp only [Sys.record, Sys.commit, Function.update_of_ne hut] at hr
          simp only [Sys.record, Sys.commit, Function.update_of_ne hvt] at hr'
          exact (hi.separate u).index v hv r hr r' hr' ((hne hut hr).mp hp) ((hne hvt hr').mp hp')
  began u now hb := by
    by_cases hu : u = t
    · simp [Sys.record, Sys.commit, hu] at hb
    · simp only [Sys.record, Sys.commit, Function.update_of_ne hu] at hb
      exact hi.began u now hb
  past e he := by
    rcases List.mem_append.mp he with he | he
    · exact hi.past e he
    · rw [List.mem_singleton.mp he]
      exact le_rfl
  logged := by
    refine hi.logged.snoc ⟨hi.ok, hi.owned, hi.now_le t, hi.past, fun _ => ?_, fun hc => ?_, ?_, ?_⟩
    · exact ⟨h, ha.valid, hc, hj, by simp only [Sys.event, Sys.commit, Sys.view, ha.writes]⟩
    · cases hc
    · intro k hk
      cases hk
    · intro channel event hk
      cases hk
  follows := by
    have hf := hi.follows.snoc (e := σ.event t .commit (.ok ()) (σ.commit t).data) rfl
    simpa only [Sys.record, Sys.event] using hf

theorem Inv.env (hi : Inv owner req d₀ σ) (he : Env owner σ σ') : Inv owner req d₀ σ' := by
  cases he with
  | tick clock appClock hle =>
    exact { hi with
      separate := fun t => ⟨(hi.separate t).disjoint, (hi.separate t).index⟩
      began := fun t now hb => (hi.began t now hb).trans hle
      past := fun e he => (hi.past e he).trans hle }
  | edit catalog ho =>
    exact { hi with
      owned := ho
      separate := fun t => ⟨(hi.separate t).disjoint, (hi.separate t).index⟩ }

theorem Inv.exec (hi : Inv owner req d₀ σ) (hr : Ready owner req t q σ) (hx : Exec t q σ r σ') :
    Inv owner req d₀ σ' := by
  cases hx with
  | kill hq =>
    cases q with
    | command c => exact hi.abort rfl hr
    | _ => cases hq
  | perform hb =>
    cases q with
    | query q => exact hi.query hr _
    | command c =>
      simp only [Sys.perform, Sys.answer]
      cases hv : c.violation (σ.ctx t) (σ.view t) with
      | some e => exact hi.abort rfl hr
      | none => exact hi.write hb hr _
    | commit =>
      obtain ⟨h, ha, hc, hj⟩ := hr
      exact hi.commit ha hc hj
    | rollback => exact hi.abort rfl hr
    | appNow => exact hi.record moves_refl (hi.writesBelow t) (hi.separate t) (hi.began t) rfl hr
    | publish channel event =>
      exact hi.record moves_refl (hi.writesBelow t) (hi.separate t) (hi.began t) rfl hr

def discipline (owner : Uuid → Uuid) (req : Fin n → Request) (d₀ : Data) :
    Discipline (machine owner n) where
  inv := Inv owner req d₀
  pre := Ready owner req
  exec_inv hi hr hx := hi.exec hr hx
  env_inv hi he := hi.env he

end QOrder
