import QOrder.Carts
import QOrder.ScreenCalls
import QOrder.StaffAnswers

/-! What an operation that has the database to itself does to the staff calls, and what it tells the
kitchens about them. -/

namespace QOrder

open KeyedTable Concurrency

section Calling

variable {s : Solo} {callId : Uuid}

/-- The row that `INSERT INTO staff_calls` writes. -/
def Ctx.newCall (ctx : Ctx) (restaurantId tableId sessionId : Uuid) : StaffCall where
  id := ctx.nextUuid
  restaurantId := restaurantId
  tableId := tableId
  tableSessionId := sessionId
  status := .pending
  createdAt := ctx.now
  acknowledgedAt := none
  acknowledgedBy := none

theorem Solo.run_insertCall_row (hrests : s.Rests) (tableId sessionId restaurantId : Uuid) :
    ∃ s', s.run (StaffCallService.insertCall tableId sessionId restaurantId) =
        (.ok (s.ctx.newCall restaurantId tableId sessionId), s') ∧
      s'.data.calls = overlay s.data.calls [s.ctx.newCall restaurantId tableId sessionId] ∧ s'.sent = s.sent := by
  let s₂ := s.write (.touchSession sessionId)
  let s₃ := s₂.write (.insertCall restaurantId tableId sessionId)
  let call := s.ctx.newCall restaurantId tableId sessionId
  have hcalls : s₃.writes.calls = [call] := by
    change overlay (overlay s.writes.calls []) [call] = [call]
    rw [hrests, overlay_nil]
    exact nil_overlay _
  have hdata : s₃.commit.data.calls = overlay s.data.calls [call] := by
    change overlay s.data.calls s₃.writes.calls = _
    rw [hcalls]
  have hview : s₃.commit.view = s₃.commit.data := Solo.Rests.view rfl
  have hq : (Query.callById call.id).eval s₃.commit.ctx s₃.commit.catalog s₃.commit.view = some call := by
    rw [hview]
    change lookup call.id s₃.commit.data.calls = some call
    rw [hdata, lookup_overlay, lookup_singleton]
    simp
  refine ⟨s₃.commit, ?_, hdata, rfl⟩
  unfold StaffCallService.insertCall
  rw [Solo.run_command rfl, Solo.run_command rfl]
  change s₃.run (Action.commit >>= fun _ => Action.query (.callById call.id) >>= Action.scalarOne) = _
  rw [Solo.run_commit, Solo.run_query hq]
  rfl

/-- A guest's call is refused, or it is a new row, which both channels are told. -/
theorem Solo.callStaff_cases (h : s.Rests) (hsent : s.sent = []) (qrToken : String) :
    ((s.run (Customer.callStaff qrToken)).2.data.calls = s.data.calls ∧ (s.run (Customer.callStaff qrToken)).2.sent = []) ∨
      ∃ c : StaffCall, s.nextUuid ≤ c.id ∧ c.status = .pending ∧ c.acknowledgedBy = none ∧
        (s.run (Customer.callStaff qrToken)).2.data.calls = overlay s.data.calls [c] ∧
        ∀ restaurantId, (s.run (Customer.callStaff qrToken)).2.messagesOn (.kitchen restaurantId) =
          if restaurantId = c.restaurantId then
            [.staffCallNew c.id c.tableId c.tableSessionId .pending c.createdAt] else [] := by
  cases hr : s.catalog.resolve qrToken with
  | error e =>
    have hrun : s.run (Customer.callStaff qrToken) = (.error e, s) := by
      unfold Customer.callStaff
      exact Solo.resolve_error hr
    rw [hrun]
    exact .inl ⟨rfl, hsent⟩
  | ok found =>
    obtain ⟨table, restaurant⟩ := found
    rcases Solo.getOrOpen_cases h table.id restaurant.id none with ⟨ho, -⟩ | ⟨session, s₁, ho, hopens⟩
    · have hrun : s.run (Customer.callStaff qrToken) = (.error .multipleResultsFound, s) := by
        unfold Customer.callStaff
        rw [Solo.resolve_ok hr]
        dsimp only
        exact Solo.bind_error (by rw [Solo.run_getOrOpen h, ho])
      rw [hrun]
      exact .inl ⟨rfl, hsent⟩
    · have hrun : s.run (Customer.callStaff qrToken) =
          s₁.run (StaffCallService.create table.id session.id restaurant.id) := by
        unfold Customer.callStaff
        rw [Solo.resolve_ok hr]
        dsimp only
        rw [Solo.bind_ok (by rw [Solo.run_getOrOpen h, ho])]
        rfl
      rw [hrun]
      unfold StaffCallService.create StaffCallService.getCooldown
      simp only [bind_assoc]
      rw [Solo.run_query rfl, pure_bind]
      have hkept := hopens.unwritten.2.2
      cases hrecent : (Query.recentCall table.id (((Query.cooldown restaurant.id).eval s₁.ctx s₁.catalog
          s₁.view).getD StaffCallService.defaultCooldownSeconds)).eval s₁.ctx s₁.catalog s₁.view with
      | true =>
        rw [Solo.run_query hrecent]
        exact .inl ⟨hkept, hopens.sent.trans hsent⟩
      | false =>
        obtain ⟨s', hinsert, hcalls, hsame⟩ := Solo.run_insertCall_row hopens.rests table.id session.id restaurant.id
        rw [Solo.run_query hrecent, if_neg Bool.false_ne_true, Solo.bind_ok hinsert]
        have hpublish := Solo.run_publishBoth (s := s') (.kitchen restaurant.id) (.session restaurant.id session.id)
          (.staffCallNew s₁.nextUuid table.id session.id .pending s₁.clock)
        have hnone : s'.sent = [] := hsame.trans (hopens.sent.trans hsent)
        refine .inr ⟨s₁.ctx.newCall restaurant.id table.id session.id, hopens.nextUuid_le, rfl, rfl, ?_, fun k => ?_⟩
        · rw [← hkept, ← hcalls]
          rfl
        · have hboth := Solo.messagesOn_both hnone (a := .kitchen restaurant.id) (b := .session restaurant.id session.id)
            (by simp) (.staffCallNew s₁.nextUuid table.id session.id .pending s₁.clock) (.kitchen k)
          refine Eq.trans ?_ (hboth.trans ?_)
          · rfl
          · by_cases hk : k = restaurant.id
            · simp [hk, Ctx.newCall, Solo.ctx]
            · simp [hk, Ctx.newCall]

theorem Solo.run_acknowledge_row (by_ : Uuid) {call : StaffCall} (h : s.Rests) (hk : UniqueKeys s.data.calls)
    (hc : lookup callId s.data.calls = some call) :
    ∃ s', s.run (StaffCallService.acknowledge callId by_) = (.ok (call.acknowledge s.appClock by_), s') ∧
      s'.data.calls = (s.data.calls.map fun x => if x.id = call.id then call.acknowledge s.appClock by_ else x) ∧
      s'.sent = s.sent := by
  let update := Command.acknowledgeCall callId s.appClock by_
  have hview := h.view
  have hid : call.id = callId := key_of_lookup hc
  have hrows : (s.rows update).calls = [call.acknowledge s.appClock by_] := by
    change changed (fun c => c.id == callId) (fun c => c.acknowledge s.appClock by_) s.view.calls = _
    rw [hview]
    exact changed_eq_singleton (fun c hc => beq_iff_eq.mp hc) hk hc (beq_iff_eq.mpr hid)
  have hv : update.violation s.ctx s.view = none := by
    have hsome : (update.rows s.ctx s.view).calls.isEmpty = false := by
      change (s.rows update).calls.isEmpty = false
      rw [hrows]
      rfl
    change (if (update.rows s.ctx s.view).calls.isEmpty = true then _ else _) = _
    rw [hsome]
    rfl
  let after := (s.write update).commit
  have hdata : after.data.calls = overlay s.data.calls [call.acknowledge s.appClock by_] := by
    change overlay s.data.calls (overlay s.writes.calls (s.rows update).calls) = _
    rw [h, hrows, nil_overlay]
  have hfound : (Query.callById callId).eval after.ctx after.catalog after.view =
      some (call.acknowledge s.appClock by_) := by
    change lookup callId (overlay after.data.calls []) = _
    rw [overlay_nil, hdata, lookup_overlay, lookup_singleton]
    simp [hid]
  refine ⟨after, ?_, ?_, rfl⟩
  · unfold StaffCallService.acknowledge
    rw [Solo.run_appNow, Solo.run_command hv, Solo.run_commit, Solo.run_query hfound]
    rfl
  · have hl : lookup (key call) s.data.calls = some call := by rw [key_call, hid, hc]
    rw [hdata]
    exact overlay_row hl rfl

/-- A call is unknown, has been answered before, or is acknowledged now, which both channels are told. -/
theorem Solo.ack_cases (h : s.Rests) (hsent : s.sent = []) (hk : UniqueKeys s.data.calls) (user : TokenPayload)
    (callId : Uuid) : (∃ e, s.run (Kitchen.ackStaffCall user callId) = (.error e, s)) ∨
      ∃ c ∈ s.data.calls, c.id = callId ∧ (s.run (Kitchen.ackStaffCall user callId) = (.ok c, s) ∧ c.status = .acknowledged ∨
        ∃ s', s.run (Kitchen.ackStaffCall user callId) = (.ok (c.acknowledge s.appClock user.sub), s') ∧
          s'.data.calls = (s.data.calls.map fun x => if x.id = c.id then c.acknowledge s.appClock user.sub else x) ∧
          ∀ restaurantId, s'.messagesOn (.kitchen restaurantId) = if restaurantId = c.restaurantId then
            [.staffCallAck c.id c.tableId c.tableSessionId .acknowledged (some s.appClock) (some user.sub)] else []) := by
  have hrun : s.run (Kitchen.ackStaffCall user callId) = _ := Solo.run_translate ..
  have hq : (Query.callOf callId user.restaurantId).eval s.ctx s.catalog s.view =
      (lookup callId s.data.calls).filter fun c => c.restaurantId == user.restaurantId := by
    rw [Query.eval, h.view]
  cases hfound : (lookup callId s.data.calls).filter fun c => c.restaurantId == user.restaurantId with
  | none =>
    have hmissing : s.run (StaffCallService.ack callId user.sub user.restaurantId) =
        (.error (.valueError "Yêu cầu gọi nhân viên không tồn tại."), s) := by
      unfold StaffCallService.ack
      rw [Solo.run_query (hq.trans hfound)]
      rfl
    rw [hmissing] at hrun
    exact .inl ⟨_, hrun⟩
  | some call =>
    obtain ⟨hlookup, hr⟩ := Option.filter_eq_some_iff.mp hfound
    have hrestaurant : call.restaurantId = user.restaurantId := beq_iff_eq.mp hr
    refine .inr ⟨call, mem_of_lookup hlookup, key_of_lookup hlookup, ?_⟩
    by_cases hdone : call.status = .acknowledged
    · have hack : s.run (StaffCallService.ack callId user.sub user.restaurantId) = (.ok call, s) := by
        unfold StaffCallService.ack
        rw [Solo.run_query (hq.trans hfound)]
        simp only [if_pos hdone]
        rfl
      rw [hack] at hrun
      exact .inl ⟨hrun, hdone⟩
    · obtain ⟨s', hacknowledge, hcalls, hsame⟩ := Solo.run_acknowledge_row user.sub h hk hlookup
      let event : RealtimeEvent := .staffCallAck call.id call.tableId call.tableSessionId .acknowledged (some s.appClock)
        (some user.sub)
      let told := (s'.publish (.kitchen user.restaurantId) event).publish
        (.session user.restaurantId call.tableSessionId) event
      have hpublish : s'.run (StaffCallService.publishAck user.restaurantId (call.acknowledge s.appClock user.sub)) =
          (.ok (), told) := Solo.run_publishBoth ..
      have hack : s.run (StaffCallService.ack callId user.sub user.restaurantId) =
          (.ok (call.acknowledge s.appClock user.sub), told) := by
        unfold StaffCallService.ack
        rw [Solo.run_query (hq.trans hfound)]
        simp only [if_neg hdone]
        rw [Solo.bind_ok hacknowledge, Solo.bind_ok hpublish]
        rfl
      rw [hack] at hrun
      refine .inr ⟨told, hrun, hcalls, fun k => ?_⟩
      rw [hrestaurant]
      refine (Solo.messagesOn_both (hsame.trans hsent) (by simp) event (.kitchen k)).trans ?_
      by_cases hk : k = user.restaurantId
      · simp [hk, event]
      · simp [hk]

end Calling

section Operations

variable {owner : Uuid → Uuid}

theorem Deployment.starts (D : Deployment owner) (r : Request) : D.Reaches (fun _ : Fin 1 => r) (D.start fun _ => r) :=
  .refl

/-- The database that an operation alone leaves to the next. -/
def Deployment.serve (D : Deployment owner) (r : Request) (w : Moment) (hw : D.nextUuid ≤ w.nextUuid) :
    Deployment owner where
  catalog := D.catalog
  data := r.effect w D.catalog D.data
  clock := w.clock
  appClock := w.appClock
  nextUuid := (r.execute w D.catalog D.data).2.nextUuid
  owned := D.owned
  ok := (D.starts r).effect_ok hw r
  below := by
    obtain ⟨q, hq, hstate, -⟩ := (D.starts r).execute hw r
    have hbelow := hq.inv.below
    rw [hstate] at hbelow
    exact hbelow

theorem Solo.run_wrapped {α β : Type} (s : Solo) (a : Action α) (f : α → β) :
    s.run (a >>= fun b => pure (f b)) = ((s.run a).1.map f, (s.run a).2) := by
  rw [Solo.run_bind]
  cases (s.run a).1 <;> rfl

/-- What one operation does to the calls. -/
theorem Deployment.callEffect (D : Deployment owner) (r : Request) (w : Moment) (hw : D.nextUuid ≤ w.nextUuid) :
    CallEffect D.data (r.effect w D.catalog D.data) fun k => r.messages w D.catalog D.data (.kitchen k) := by
  let s := w.solo D.catalog D.data
  have hrests : s.Rests := rfl
  have hsent : s.sent = [] := rfl
  have hkept {calls : List StaffCall} (h : calls = D.data.calls) : calls = D.data.calls.map id := by
    rw [h, List.map_id]
  by_cases hsilent : r.Silent
  · obtain ⟨q, hq, hstate, -⟩ := (D.starts r).execute hw r
    refine .kept ?_ fun k calls => KitchenBoard.receiveCalls_same (fun event hm => ?_) calls
    · have hkeeps := hq.keepsCalls hsilent
      rw [hstate] at hkeeps
      exact hkeeps
    · have hm' : event ∈ messagesOn (.kitchen k) q.state.history := by
        rw [hstate]
        exact hm
      exact hq.tells_no_call hsilent hm'
  · cases r with
    | callStaff qrToken =>
      have hrun : s.run (Request.callStaff qrToken).handler = _ :=
        Solo.run_wrapped s (Customer.callStaff qrToken) Response.call
      have heffect : (Request.callStaff qrToken).effect w D.catalog D.data = (s.run (Customer.callStaff qrToken)).2.data := by
        rw [Request.effect_solo, hrun]
      have hmessages (k : Uuid) : (Request.callStaff qrToken).messages w D.catalog D.data (.kitchen k) =
          (s.run (Customer.callStaff qrToken)).2.messagesOn (.kitchen k) := by
        rw [Request.messages_solo, hrun]
      rcases Solo.callStaff_cases hrests hsent qrToken with ⟨hcalls, hnone⟩ | ⟨c, hid, hp, hb, hcalls, htold⟩
      · refine .kept ⟨id, ?_, fun _ => ⟨rfl, id⟩⟩ fun k calls => ?_
        · rw [heffect]
          exact hkept hcalls
        · rw [hmessages, Solo.messagesOn, hnone]
          rfl
      · have hnew : ∀ x ∈ D.data.calls, x.id ≠ c.id := by
          intro x hx he
          have hlt := D.below.calls x hx
          exact absurd (hw.trans hid) (not_le.mpr (he ▸ hlt))
        refine .called c hnew hp hb ?_ fun k => (hmessages k).trans (htold k)
        rw [heffect, hcalls]
        refine overlay_new fun x hx => ?_
        rw [List.mem_singleton.mp hx]
        exact lookup_eq_none.mpr hnew
    | ackStaffCall user callId =>
      have hrun : s.run (Request.ackStaffCall user callId).handler = _ :=
        Solo.run_wrapped s (Kitchen.ackStaffCall user callId) fun call => Response.call (some call)
      have heffect : (Request.ackStaffCall user callId).effect w D.catalog D.data =
          (s.run (Kitchen.ackStaffCall user callId)).2.data := by
        rw [Request.effect_solo, hrun]
      have hmessages (k : Uuid) : (Request.ackStaffCall user callId).messages w D.catalog D.data (.kitchen k) =
          (s.run (Kitchen.ackStaffCall user callId)).2.messagesOn (.kitchen k) := by
        rw [Request.messages_solo, hrun]
      have hsame (h : (s.run (Kitchen.ackStaffCall user callId)).2 = s) : CallEffect D.data
          ((Request.ackStaffCall user callId).effect w D.catalog D.data)
          fun k => (Request.ackStaffCall user callId).messages w D.catalog D.data (.kitchen k) := by
        refine .kept ⟨id, ?_, fun _ => ⟨rfl, id⟩⟩ fun k calls => ?_
        · rw [heffect, h]
          exact hkept rfl
        · rw [hmessages, h, Solo.messagesOn, hsent]
          rfl
      rcases Solo.ack_cases hrests hsent D.ok.callIds user callId with ⟨e, hack⟩ | ⟨c, hc, -, ⟨hack, -⟩ | ⟨s', hack, hcalls, htold⟩⟩
      · exact hsame (by rw [hack])
      · exact hsame (by rw [hack])
      · refine .acked c s.appClock user.sub hc ?_ fun k => ?_
        · rw [heffect, hack]
          exact hcalls
        · rw [hmessages, hack]
          exact htold k
    | _ => exact absurd trivial hsilent

/-- Once its button has been pressed a call is there, and acknowledged. -/
theorem Deployment.acknowledged (D : Deployment owner) {user : TokenPayload} {callId : Uuid} {w : Moment}
    {answer : Response} (h : (Request.ackStaffCall user callId).response w D.catalog D.data = .ok answer) :
    ∃ c ∈ ((Request.ackStaffCall user callId).effect w D.catalog D.data).calls, c.id = callId ∧
      c.status = .acknowledged := by
  have hrests : (w.solo D.catalog D.data).Rests := rfl
  have hrun : (w.solo D.catalog D.data).run (Request.ackStaffCall user callId).handler = _ :=
    Solo.run_wrapped _ (Kitchen.ackStaffCall user callId) fun call => Response.call (some call)
  rw [Request.response_solo, hrun] at h
  rw [Request.effect_solo, hrun]
  rcases Solo.ack_cases hrests rfl D.ok.callIds user callId with ⟨e, hack⟩ | ⟨c, hc, hid, ⟨hack, hst⟩ | ⟨s', hack, hcalls, -⟩⟩
  · rw [hack] at h
    cases h
  · rw [hack]
    exact ⟨c, hc, hid, hst⟩
  · rw [hack]
    refine ⟨c.acknowledge (w.solo D.catalog D.data).appClock user.sub, ?_, hid, rfl⟩
    rw [hcalls]
    exact List.mem_map.mpr ⟨c, hc, if_pos rfl⟩

end Operations

end QOrder
