import QOrder.CallRace
import QOrder.Refusals

/-! Acknowledging a staff call. The request reads the call in one statement and writes it
by id in a later one, so two of them may both find it pending. -/

namespace QOrder

open KeyedTable Concurrency

variable {n : Nat} {owner : Uuid → Uuid} {req : Fin n → Request} {D : Deployment owner} {d₀ d : Data}
  {p : Clients n} {t : Fin n} {k : Uuid} {σ σ' : Sys n} {e : Event n} {c : Command} {l : List (Event n)}

/-- The call that the statement has acknowledged. -/
def Event.acknowledges (e : Event n) : Option Uuid :=
  match e.stmt with
  | .command (.acknowledgeCall callId _ _) => if e.succeeded then some callId else none
  | _ => none

/-- The call that a `staff_call.ack` is about. -/
def Event.announcesAck (e : Event n) : Option Uuid :=
  match e.stmt with
  | .publish _ (.staffCallAck id _ _ _ _ _) => some id
  | _ => none

/-- The call is still pending when the update is executed. -/
def Event.FindsPending (e : Event n) : Prop :=
  ∀ x ∈ e.before.calls, e.acknowledges = some x.id → x.status = .pending

instance (e : Event n) : Decidable e.FindsPending := inferInstanceAs (Decidable (∀ x ∈ e.before.calls, _ → _))

def Request.isAck : Request → Bool
  | .ackStaffCall _ _ => true
  | _ => false

/-- Calls that nobody has acknowledged have no record of it. -/
def Data.Unrecorded (d : Data) : Prop :=
  ∀ x ∈ d.calls, x.status = .pending → x.acknowledgedAt = none

/-- Acknowledged calls stay as they are. -/
def Data.KeepsAcked (d d' : Data) : Prop :=
  ∀ k x, lookup k d.calls = some x → x.status = .acknowledged → lookup k d'.calls = some x

theorem Data.KeepsAcked.trans {d d' d'' : Data} (h : d.KeepsAcked d') (h' : d'.KeepsAcked d'') :
    d.KeepsAcked d'' :=
  fun k x hx ha => h' k x (h k x hx ha) ha

theorem Event.acknowledges_stmt (h : e.acknowledges = some k) :
    e.succeeded = true ∧ ∃ at_ by_, e.stmt = .command (.acknowledgeCall k at_ by_) := by
  unfold acknowledges at h
  split at h
  next callId at_ by_ hs =>
    split at h
    next hok =>
      cases h
      exact ⟨hok, at_, by_, hs⟩
    · cases h
  · cases h

/-- A client that has written calls executes no further command. -/
theorem Holding.Runs.calls {h : Holding} (hr : h.Runs c) (now : Timestamp) (d : Data) :
    (h.writes now d).calls = [] := by
  cases h with
  | leaving s items kind stage =>
    have hstage : stage ≠ .dismissed := by
      rintro rfl
      cases c <;> simp [Runs] at hr
    simp [writes, hstage]
  | calling s x => cases c <;> simp [Runs] at hr
  | acking x x' => cases c <;> simp [Runs] at hr
  | _ => rfl

/-- The row of the call that the client has written, or has committed. -/
def Sys.Acked (σ : Sys n) (t : Fin n) (k : Uuid) : Prop :=
  (∃ w, lookup k (σ.writes t).calls = some w ∧ w.status = .acknowledged) ∨
    ∃ x, lookup k σ.data.calls = some x ∧ x.status = .acknowledged

/-- What holds while every acknowledgement finds its call pending. -/
structure AckedOnce (req : Fin n → Request) (d₀ : Data) (σ : Sys n) : Prop where
  pending : ∀ t, ∀ w ∈ (σ.writes t).calls, ∀ x, lookup w.id σ.data.calls = some x → x.status = .pending
  made : ∀ e ∈ σ.history, ∀ k, e.acknowledges = some k → (req e.client).isAck = true → σ.Acked e.client k
  once : ∀ e ∈ σ.history, ∀ e' ∈ σ.history, ∀ k, e.acknowledges = some k → e'.acknowledges = some k →
    (req e.client).isAck = true → (req e'.client).isAck = true → e.client = e'.client
  fixed : ∀ d ∈ d₀ :: σ.history.map Event.after, d.KeepsAcked σ.data

section Steps

/-- Calls that a command writes were pending, or are new. -/
theorem rows_pending (hi : Inv owner req d₀ σ)
    (hp : ∀ w ∈ (σ.writes t).calls, ∀ x, lookup w.id σ.data.calls = some x → x.status = .pending)
    (hf : ∀ k at_ by_, c = .acknowledgeCall k at_ by_ → ∀ x ∈ σ.data.calls, x.id = k → x.status = .pending) :
    ∀ w ∈ (σ.rows t c).calls, ∀ x, lookup w.id σ.data.calls = some x → x.status = .pending := by
  intro w hw x hx
  cases c with
  | insertCall restaurantId tableId sessionId =>
    obtain rfl := List.mem_singleton.mp hw
    have hlt := hi.below.calls x (mem_of_lookup hx)
    have hid : x.id = σ.nextUuid := key_of_lookup hx
    rw [hid] at hlt
    exact absurd hlt (lt_irrefl _)
  | acknowledgeCall k at_ by_ =>
    obtain ⟨x', -, hm, rfl⟩ := mem_changed.mp hw
    have hk : x'.id = k := beq_iff_eq.mp hm
    exact hf k at_ by_ rfl x (mem_of_lookup hx) ((key_of_lookup hx).trans hk)
  | dismissPending sessionId restaurantId =>
    obtain ⟨x', hx', rfl⟩ := Data.mem_dismissedCalls.mp hw
    obtain ⟨hm, -, -, hs⟩ := Data.mem_pendingCalls.mp hx'
    rcases mem_of_mem_overlay hm with hm | hm
    · exact hp x' hm x hx
    · have hl : lookup x'.id σ.data.calls = some x' := hi.ok.mem_calls.mp hm
      have he : x = x' := Option.some.inj (hx.symm.trans hl)
      rw [he]
      exact hs
  | _ => cases hw

/-- The event of a step, added to what held before. -/
theorem AckedOnce.record (h : AckedOnce req d₀ σ) {e : Event n} (hh : σ'.history = σ.history ++ [e])
    (hafter : e.after = σ'.data) (hkeep : σ.data.KeepsAcked σ'.data)
    (hpending : ∀ t, ∀ w ∈ (σ'.writes t).calls, ∀ x, lookup w.id σ'.data.calls = some x → x.status = .pending)
    (hmade : ∀ t k, (req t).isAck = true → σ.Acked t k → σ'.Acked t k)
    (hnew : ∀ k, e.acknowledges = some k → (req e.client).isAck = true →
      σ'.Acked e.client k ∧ ∀ u, u ≠ e.client → ¬ σ.Acked u k) : AckedOnce req d₀ σ' where
  pending := hpending
  made x hx k hk hq := by
    rw [hh] at hx
    rcases List.mem_append.mp hx with hx | hx
    · exact hmade _ _ hq (h.made x hx k hk hq)
    · obtain rfl := List.mem_singleton.mp hx
      exact (hnew k hk hq).1
  once x hx y hy k hk hk' hq hq' := by
    rw [hh] at hx hy
    have other {x : Event n} (hx : x ∈ σ.history) (hk : x.acknowledges = some k)
        (hq : (req x.client).isAck = true) (hke : e.acknowledges = some k)
        (hqe : (req e.client).isAck = true) : x.client = e.client := by
      by_contra hne
      exact (hnew k hke hqe).2 _ hne (h.made x hx k hk hq)
    rcases List.mem_append.mp hx with hx₁ | hx₁ <;> rcases List.mem_append.mp hy with hy₁ | hy₁
    · exact h.once x hx₁ y hy₁ k hk hk' hq hq'
    · obtain rfl := List.mem_singleton.mp hy₁
      exact other hx₁ hk hq hk' hq'
    · obtain rfl := List.mem_singleton.mp hx₁
      exact (other hy₁ hk' hq' hk hq).symm
    · rw [List.mem_singleton.mp hx₁, List.mem_singleton.mp hy₁]
  fixed d hd := by
    rw [hh, List.map_append, ← List.cons_append] at hd
    rcases List.mem_append.mp hd with hd | hd
    · exact (h.fixed d hd).trans hkeep
    · rw [List.mem_singleton.mp hd, hafter]
      exact fun _ _ hl _ => hl

variable {q : Stmt} {r : Except DbError q.Resp}

/-- A statement that leaves the rows alone, committed and written. -/
theorem AckedOnce.idle (h : AckedOnce req d₀ σ) (hd : σ'.data = σ.data) (hw : σ'.writes = σ.writes)
    (hq : q.isCommand = false) : AckedOnce req d₀ (σ.record t q r σ') := by
  have hacks : (σ.event t q r σ'.data).acknowledges = none := by
    cases q <;> first | rfl | cases hq
  refine h.record rfl rfl ?_ ?_ ?_ ?_
  · intro k x hx _
    exact hd ▸ hx
  · intro u w hm x hx
    exact h.pending u w (hw ▸ hm) x (hd ▸ hx)
  · rintro u k - ha
    simpa [Sys.Acked, Sys.record, hd, hw] using ha
  · intro k hk
    rw [hacks] at hk
    cases hk

/-- A transaction that has written no calls of an acknowledgement is aborted. -/
theorem AckedOnce.aborted (h : AckedOnce req d₀ σ) (hn : (req t).isAck = true → (σ.writes t).calls = [])
    (hr : (σ.event t q r σ.data).acknowledges = none) : AckedOnce req d₀ (σ.record t q r (σ.abort t)) := by
  refine h.record rfl rfl (fun k x hx _ => hx) ?_ ?_ ?_
  · intro u w hm x hx
    by_cases hu : u = t
    · subst hu
      simp [Sys.record, Sys.abort] at hm
    · refine h.pending u w ?_ x hx
      simpa [Sys.record, Sys.abort, hu] using hm
  · intro u k hq ha
    refine ha.imp ?_ id
    rintro ⟨w, hl, hs⟩
    by_cases hu : u = t
    · subst hu
      rw [hn hq] at hl
      cases hl
    · refine ⟨w, ?_, hs⟩
      simpa [Sys.record, Sys.abort, hu] using hl
  · intro k hk
    exact absurd (hr.symm.trans hk) (by simp)

/-- A command is executed. -/
theorem AckedOnce.wrote (h : AckedOnce req d₀ σ) (hi : Inv owner req d₀ σ) {r : Except DbError Data}
    (hb : σ.blocked t (.command c) = false) (hn : (σ.writes t).calls = [])
    (hf : (σ.event t (.command c) r σ.data).FindsPending) (hr : r = .ok (σ.rows t c)) (hv : c.violation (σ.ctx t) (σ.view t) = none) :
    AckedOnce req d₀ (σ.record t (.command c) r (σ.write t c)) := by
  have hrows := rows_pending (t := t) (c := c) hi (h.pending t) fun k at_ by_ hc x hx hid => by
    refine hf x hx ?_
    subst hc
    subst hr
    exact congrArg some hid.symm
  refine h.record rfl rfl (fun k x hx _ => hx) ?_ ?_ ?_
  · intro u w hm x hx
    by_cases hu : u = t
    · subst hu
      simp only [Sys.record, Sys.write, Function.update_self, Data.overlay_calls] at hm
      rcases mem_of_mem_overlay hm with hm | hm
      · exact hrows w hm x hx
      · exact h.pending u w hm x hx
    · refine h.pending u w ?_ x hx
      simpa [Sys.record, Sys.write, Sys.begin_, hu] using hm
  · intro u k hq ha
    refine ha.imp ?_ id
    rintro ⟨w, hl, hs⟩
    by_cases hu : u = t
    · subst hu
      rw [hn] at hl
      cases hl
    · refine ⟨w, ?_, hs⟩
      simpa [Sys.record, Sys.write, Sys.begin_, hu] using hl
  · intro k hk hq
    obtain ⟨-, at_, by_, hstmt⟩ := Event.acknowledges_stmt hk
    cases hstmt
    -- The update has written the row, and no other client has.
    have hwritten : ∃ w, lookup k (σ.rows t (.acknowledgeCall k at_ by_)).calls = some w ∧
        w.status = .acknowledged := by
      have hne : (σ.rows t (.acknowledgeCall k at_ by_)).calls ≠ [] := by
        intro he
        simp only [Command.violation, Command.indexEntries, List.any_nil, Bool.false_eq_true, if_false] at hv
        rw [Sys.rows] at he
        simp [he] at hv
      obtain ⟨w, hw⟩ := List.exists_mem_of_ne_nil _ hne
      obtain ⟨x', -, hm, rfl⟩ := mem_changed.mp hw
      have hk' : x'.id = k := beq_iff_eq.mp hm
      cases hl : lookup k (σ.rows t (.acknowledgeCall k at_ by_)).calls with
      | none => exact absurd hk' (lookup_eq_none.mp hl (x'.acknowledge at_ by_) hw)
      | some w =>
        obtain ⟨y, -, -, rfl⟩ := mem_changed.mp (mem_of_lookup hl)
        exact ⟨_, rfl, rfl⟩
    obtain ⟨w, hw, hs⟩ := hwritten
    refine ⟨.inl ⟨w, ?_, hs⟩, ?_⟩
    · change lookup k (Function.update σ.writes t ((σ.writes t).overlay _) t).calls = some w
      rw [Function.update_self, Data.overlay_calls, hn, lookup_overlay, hw, Option.some_or]
    · have hid : w.id = k := key_of_lookup hw
      rintro u hu (⟨w', hw', -⟩ | ⟨x, hx, hx'⟩)
      · have hdis := (Data.overlaps_eq_false.mp (Sys.rows_separate hb hu).1).2.2.2 w (mem_of_lookup hw)
        rw [hid, hw'] at hdis
        cases hdis
      · have hp := hrows w (mem_of_lookup hw) x (hid ▸ hx)
        rw [hx'] at hp
        cases hp

/-- A transaction commits. -/
theorem AckedOnce.committed (h : AckedOnce req d₀ σ) (hi : Inv owner req d₀ σ) {r : Except DbError Unit} :
    AckedOnce req d₀ (σ.record t .commit r (σ.commit t)) := by
  have hview (k : Uuid) : lookup k (σ.view t).calls =
      (lookup k (σ.writes t).calls).or (lookup k σ.data.calls) := lookup_overlay ..
  have hkeep : σ.data.KeepsAcked (σ.view t) := by
    intro k x hx hs
    rw [hview]
    cases hl : lookup k (σ.writes t).calls with
    | none => exact hx
    | some w =>
      have hid : w.id = k := key_of_lookup hl
      have hp := h.pending t w (mem_of_lookup hl) x (hid ▸ hx)
      rw [hs] at hp
      cases hp
  have hother {u : Fin n} (hu : u ≠ t) {w : StaffCall} (hm : w ∈ (σ.writes u).calls) :
      lookup w.id (σ.view t).calls = lookup w.id σ.data.calls := by
    have hdis := (Data.overlaps_eq_false.mp ((hi.separate u).disjoint t hu.symm)).2.2.2 w hm
    rw [hview, hdis, Option.none_or]
  refine h.record rfl rfl hkeep ?_ ?_ ?_
  · intro u w hm x hx
    by_cases hu : u = t
    · subst hu
      simp [Sys.record, Sys.commit] at hm
    · have hm' : w ∈ (σ.writes u).calls := by simpa [Sys.record, Sys.commit, hu] using hm
      exact h.pending u w hm' x ((hother hu hm').symm.trans hx)
  · rintro u k - (⟨w, hl, hs⟩ | ⟨x, hx, hs⟩)
    · by_cases hu : u = t
      · subst hu
        refine .inr ⟨w, ?_, hs⟩
        change lookup k (σ.view u).calls = some w
        rw [hview, hl, Option.some_or]
      · refine .inl ⟨w, ?_, hs⟩
        simpa [Sys.record, Sys.commit, hu] using hl
    · exact .inr ⟨x, hkeep k x hx hs, hs⟩
  · intro k hk
    cases hk

end Steps

section Runs

/-- The request never rolls back, and publishes after its update. -/
def ackShape (k : Uuid) (l : List (Event n)) (q : Stmt) : Prop :=
  q ≠ .rollback ∧ (q.Publishes → ∃ e ∈ l, e.acknowledges = some k)

theorem Watch.ackStaffCall {user : TokenPayload} :
    Watch owner req d₀ t anyEvent (ackShape k) (Kitchen.ackStaffCall user k) (fun _ _ => True) l := by
  have hq {l : List (Event n)} (q : Query) : ackShape k l (.query q) := ⟨by simp, fun h => h.elim⟩
  have hcmd {l : List (Event n)} (c : Command) : ackShape k l (.command c) := ⟨by simp, fun h => h.elim⟩
  suffices h : Watch owner req d₀ t anyEvent (ackShape k)
      (StaffCallService.ack k user.sub user.restaurantId) (fun _ _ => True) l from
    h.translate (fun _ _ _ => trivial) fun _ _ _ => trivial
  simp only [StaffCallService.ack, StaffCallService.acknowledge, bind_assoc]
  refine query (hq _) fun σ _ _ _ _ => ?_
  split
  · trivial
  · split
    · trivial
    · refine appNow ⟨by simp, fun h => h.elim⟩ fun σ₁ _ _ _ _ => ?_
      refine command (hcmd _) (fun σ₂ _ _ _ _ _ => ?_) fun _ _ _ _ _ _ _ => trivial
      refine commit ⟨by simp, fun h => h.elim⟩ fun σ₃ _ _ _ _ => query (hq _) fun σ₄ _ _ _ _ => ?_
      cases hrow : (Query.callById k).eval (σ₄.ctx t) σ₄.catalog (σ₄.view t) with
      | none => exact trivial
      | some call =>
        simp only [Action.scalarOne, Prog.pure_def, Prog.ret_bind, StaffCallService.publishAck, bind_assoc]
        let update : Event n := σ₂.event t (.command (.acknowledgeCall k σ₁.appClock user.sub))
          (.ok (σ₂.rows t (.acknowledgeCall k σ₁.appClock user.sub))) σ₂.data
        refine publish ⟨by simp, fun _ => ⟨update, by simp [update], rfl⟩⟩ fun σ₅ _ _ _ _ => ?_
        exact publish ⟨by simp, fun _ => ⟨update, by simp [update], rfl⟩⟩ fun σ₆ _ _ _ _ => trivial

theorem watch_handler {user : TokenPayload} (hq : req t = .ackStaffCall user k) :
    Watch owner req d₀ t anyEvent (ackShape k) (req t).handler (fun _ _ => True) [] := by
  rw [hq]
  exact Along.bind Watch.ackStaffCall (fun _ _ _ => trivial) fun _ _ _ => trivial

theorem Deployment.Reaches.watch_ack (hr : D.Reaches req p) {user : TokenPayload}
    (hq : req t = .ackStaffCall user k) :
    Watch owner req D.data t anyEvent (ackShape k) (p.threads t) (fun _ _ => True) (own t p.state.history) :=
  hr.watch (fun _ _ => trivial) (watch_handler hq)

/-- A run in which every acknowledgement finds its call pending. -/
theorem Deployment.Reaches.ackedOnce (hr : D.Reaches req p) (hf : ∀ e ∈ p.state.history, e.FindsPending) :
    AckedOnce req D.data p.state := by
  induction hr with
  | refl =>
    constructor
    · intro t w hw
      cases hw
    · intro e he
      cases he
    · intro e he
      cases he
    · intro d hd
      rw [List.mem_singleton.mp hd]
      exact fun _ _ hl _ => hl
  | @tail p₁ p₂ hr₁ hs ih =>
    have hreach : D.Reaches req p₁ := hr₁
    cases hs with
    | env he =>
      have h := ih (by cases he <;> exact hf)
      cases he <;> exact ⟨h.pending, h.made, h.once, h.fixed⟩
    | @exec t q g r σ₂ hp hx =>
      have hhist : σ₂.history = p₁.state.history ++ [p₁.state.event t q r σ₂.data] := by cases hx <;> rfl
      change ∀ e ∈ σ₂.history, e.FindsPending at hf
      rw [hhist] at hf
      have h := ih fun e he => hf e (List.mem_append_left _ he)
      have hlast := hf _ (List.mem_append_right _ List.mem_cons_self)
      have hcalls {c : Command} (hq : q = .command c) : (p₁.state.writes t).calls = [] := by
        subst hq
        obtain ⟨w, ha, hall⟩ := hreach.kept.ready hp
        rw [ha.writes]
        exact hall.runs.calls _ _
      cases hx with
      | kill hq =>
        cases q with
        | command c => exact h.aborted (fun _ => hcalls rfl) (by cases c <;> rfl)
        | _ => cases hq
      | perform hb =>
        cases q with
        | query q => exact h.idle rfl rfl rfl
        | command c =>
          cases hv : c.violation (p₁.state.ctx t) (p₁.state.view t) with
          | some x =>
            have hperform : p₁.state.perform t (.command c) =
                (.error x, p₁.state.record t (.command c) (.error x) (p₁.state.abort t)) := by
              simp only [Sys.perform, Sys.answer, hv]
            rw [hperform]
            refine h.aborted (fun _ => hcalls rfl) ?_
            cases c <;> rfl
          | none =>
            have hperform : p₁.state.perform t (.command c) =
                (.ok (p₁.state.rows t c), p₁.state.record t (.command c) (.ok (p₁.state.rows t c))
                  (p₁.state.write t c)) := by
              simp only [Sys.perform, Sys.answer, hv]
            rw [hperform] at hlast ⊢
            exact h.wrote hreach.inv hb (hcalls rfl) hlast rfl hv
        | commit => exact h.committed hreach.inv
        | rollback =>
          refine h.aborted (fun hq => ?_) rfl
          cases hreq : req t with
          | ackStaffCall user k =>
            have hw := hreach.watch_ack hreq
            rw [hp] at hw
            exact absurd rfl hw.1.1
          | _ =>
            rw [hreq] at hq
            cases hq
        | appNow => exact h.idle rfl rfl rfl
        | publish channel event => exact h.idle rfl rfl rfl

/-- A message about an acknowledgement follows the client's own update. -/
theorem Deployment.Reaches.announced (hr : D.Reaches req p) (he : e ∈ p.state.history)
    (hk : e.announcesAck = some k) : (req e.client).isAck = true ∧
      ∃ x ∈ p.state.history, x.client = e.client ∧ x.acknowledges = some k := by
  obtain ⟨hb, ha, hh⟩ := List.append_of_mem he
  have hen := hr.inv.logged hb e ha hh
  unfold Event.announcesAck at hk
  split at hk
  next channel id tableId sessionId status at_ by_ hs =>
    cases hk
    obtain ⟨l₁, x, l₂, h, hl, hj, -, hann⟩ := hen.told _ _ hs
    cases h with
    | acking c c' =>
      obtain ⟨-, tableId', status', at', by', hevent⟩ := hann
      cases hevent
      cases hreq : req e.client with
      | ackStaffCall user callId =>
        rw [hreq] at hj
        have hcall : c.id = callId := hj
        have hw : Watch owner req D.data e.client anyEvent (ackShape callId) (req e.client).handler
            (fun _ _ => True) [] := watch_handler hreq
        obtain ⟨x, hx, hacks⟩ := (hr.guarded (fun _ _ => trivial) hw hh rfl).2 (by rw [hs]; trivial)
        refine ⟨rfl, x, ?_, of_decide_eq_true (List.mem_filter.mp hx).2, hcall ▸ hacks⟩
        rw [hh]
        exact List.mem_append_left _ (List.mem_filter.mp hx).1
      | _ => simp [hreq, Justified] at hj
    | leaving s items kind stage => cases kind <;> simp [Holding.Announces] at hann
    | _ => simp [Holding.Announces] at hann
  · cases hk

theorem Data.Unrecorded.overlay {w : Data} (hd : d.Unrecorded) (hw : w.Unrecorded) :
    (d.overlay w).Unrecorded :=
  fun x hx => (mem_of_mem_overlay hx).elim (hw x) (hd x)

theorem Command.rows_unrecorded {ctx : Ctx} (c : Command) : (c.rows ctx d).Unrecorded := by
  intro x hx hs
  cases c with
  | insertCall restaurantId tableId sessionId =>
    obtain rfl := List.mem_singleton.mp hx
    rfl
  | acknowledgeCall k at_ by_ =>
    obtain ⟨y, -, -, rfl⟩ := mem_changed.mp hx
    cases hs
  | dismissPending sessionId restaurantId =>
    obtain ⟨y, -, rfl⟩ := Data.mem_dismissedCalls.mp hx
    cases hs
  | _ => cases hx

theorem Deployment.Reaches.unrecorded (hr : D.Reaches req p) (h₀ : D.data.Unrecorded) :
    (∀ d ∈ D.committed p, d.Unrecorded) ∧ p.state.data.Unrecorded ∧ ∀ t, (p.state.writes t).Unrecorded := by
  have hnone : Data.Unrecorded {} := by
    intro x hx
    cases hx
  induction hr with
  | refl => exact ⟨fun d hd => List.mem_singleton.mp hd ▸ h₀, h₀, fun _ => hnone⟩
  | @tail p₁ p₂ _ hs ih =>
    obtain ⟨hall, hd, hw⟩ := ih
    have update {t : Fin n} {w : Data} (hw' : w.Unrecorded) (u : Fin n) :
        (Function.update p₁.state.writes t w u).Unrecorded := by
      by_cases hu : u = t
      · subst hu
        rw [Function.update_self]
        exact hw'
      · rw [Function.update_of_ne hu]
        exact hw u
    cases hs with
    | env he => cases he <;> exact ⟨hall, hd, hw⟩
    | @exec t q g r σ₂ hp hx =>
      have hhist : σ₂.history = p₁.state.history ++ [p₁.state.event t q r σ₂.data] := by cases hx <;> rfl
      suffices h : σ₂.data.Unrecorded ∧ ∀ u, (σ₂.writes u).Unrecorded by
        refine ⟨fun d hd => ?_, h⟩
        change d ∈ D.data :: σ₂.history.map Event.after at hd
        rw [hhist, List.map_append, ← List.cons_append] at hd
        rcases List.mem_append.mp hd with hd | hd
        · exact hall d hd
        · rw [List.mem_singleton.mp hd]
          exact h.1
      cases hx with
      | kill hq => exact ⟨hd, update hnone⟩
      | perform hb =>
        cases q with
        | command c =>
          simp only [Sys.perform, Sys.answer]
          cases c.violation (p₁.state.ctx t) (p₁.state.view t) with
          | some x => exact ⟨hd, update hnone⟩
          | none => exact ⟨hd, update ((hw t).overlay c.rows_unrecorded)⟩
        | commit => exact ⟨hd.overlay (hw t), update hnone⟩
        | rollback => exact ⟨hd, update hnone⟩
        | query | appNow | publish => exact ⟨hd, hw⟩

/-- The record of the call is written once, and one request at most tells of it. -/
structure WrittenOnce (D : Deployment owner) (p : Clients n) (k : Uuid) : Prop where
  record : ∀ d ∈ D.committed p, ∀ x, lookup k d.calls = some x → x.acknowledgedAt.isSome →
    ∃ x', lookup k p.state.data.calls = some x' ∧ x'.acknowledgedAt = x.acknowledgedAt ∧
      x'.acknowledgedBy = x.acknowledgedBy
  published : ∀ e ∈ p.state.history, ∀ e' ∈ p.state.history, e.announcesAck = some k →
    e'.announcesAck = some k → e.client = e'.client

theorem written_once (hr : D.Reaches req p) (h₀ : D.data.Unrecorded)
    (hf : ∀ e ∈ p.state.history, e.FindsPending) (k : Uuid) : WrittenOnce D p k := by
  have hone := hr.ackedOnce hf
  constructor
  · intro d hd x hx hrec
    have hacked : x.status = .acknowledged := by
      cases hs : x.status with
      | acknowledged => rfl
      | pending =>
        rw [(hr.unrecorded h₀).1 d hd x (mem_of_lookup hx) hs] at hrec
        cases hrec
    exact ⟨x, hone.fixed d hd k x hx hacked, rfl, rfl⟩
  · intro e he e' he' hk hk'
    obtain ⟨hq, x, hx, hc, hacks⟩ := hr.announced he hk
    obtain ⟨hq', x', hx', hc', hacks'⟩ := hr.announced he' hk'
    have hsame := hone.once x hx x' hx' k hacks hacks' (hc ▸ hq) (hc' ▸ hq')
    rw [← hc, ← hc', hsame]

def cafeAcks : Fin 3 → Request
  | 0 => .callStaff "ban-1"
  | 1 => .ackStaffCall cafeStaff 11
  | 2 => .ackStaffCall ⟨5, 1⟩ 11

/-- The second member of staff comes when the call has been acknowledged. -/
theorem written_once_cafe : ∃ p, cafe.Reaches cafeAcks p ∧ WrittenOnce cafe p 11 ∧
    (p.state.data.calls.all fun x => x.acknowledgedBy == some 4) = true := by
  obtain ⟨p, hr, hc⟩ := cafe.reaches_play cafeAcks
    (fun p => decide ((p.state.data.calls.all fun x => x.acknowledgedBy == some 4) = true ∧
      ∀ e ∈ p.state.history, e.FindsPending))
    (steps 0 13 ++ steps 1 7 ++ steps 2 1) (by decide +kernel)
  obtain ⟨hall, hf⟩ := of_decide_eq_true hc
  exact ⟨p, hr, written_once hr (by simp [Data.Unrecorded, cafe]) hf 11, hall⟩

/-- Both have read the call before either has written it. -/
theorem written_once_fails : ¬ ∀ p, cafe.Reaches cafeAcks p → ∀ k, WrittenOnce cafe p k := by
  intro h
  obtain ⟨p, hr, hc⟩ := cafe.reaches_play cafeAcks
    (fun p => p.state.history.any fun e => e.announcesAck == some 11 && e.client == 1 &&
      p.state.history.any fun e' => e'.announcesAck == some 11 && e'.client == 2)
    (steps 0 13 ++ steps 1 1 ++ steps 2 7 ++ steps 1 6) (by decide +kernel)
  obtain ⟨e, he, hc⟩ := List.any_eq_true.mp hc
  simp only [Bool.and_eq_true, beq_iff_eq, List.any_eq_true] at hc
  obtain ⟨⟨hk, hcl⟩, e', he', hk', hcl'⟩ := hc
  have hsame := (h p hr 11).published e he e' he' hk hk'
  rw [hcl, hcl'] at hsame
  exact absurd hsame (by decide)

end Runs

end QOrder
