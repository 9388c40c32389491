import QOrder.Runs
import QOrder.ServiceStatements

/-! A handler that has published raises no error any more that answers with a 4xx status:
the refusals all come before. -/

namespace QOrder

open Concurrency Concurrency.Prog QOrder.Action

variable {α β : Type} {p : Action α} {f : α → Action β}

def Stmt.Publishes : Stmt → Prop
  | publish _ _ => True
  | _ => False

/-- An error that becomes, or that a router makes, an answer with a 4xx status. -/
def Exn.Refuses : Exn → Prop
  | http _ _ | valueError _ | conflictError _ | invalidTransition _ => True
  | _ => False

abbrev Mute (p : Action α) : Prop := p.Keeps (fun q => ¬ q.Publishes) fun _ => True

abbrev Unrefusing (p : Action α) : Prop := p.Keeps (fun _ => True) fun e => ¬ e.Refuses

abbrev Decided (p : Action α) : Prop := p.Final Stmt.Publishes fun e => ¬ e.Refuses

section Mute

theorem Bare.mute (h : Bare p) : Mute p := by
  refine Keeps.mono h fun q hq => ?_
  cases q with
  | publish _ _ => exact False.elim hq
  | _ => exact id

theorem mute_query (q : Query) : Mute (query q) := .call id fun _ => trivial

theorem mute_validateItems (restaurantId : Uuid) (lines : List CreateOrderItemRequest)
    (menuItems : List MenuItem) : Mute (Customer.validateItems restaurantId lines menuItems) := by
  induction lines generalizing menuItems with
  | nil => trivial
  | cons line lines ih =>
    refine (mute_query _).bind fun row => ?_
    cases row with
    | none => trivial
    | some row =>
      simp only
      split
      · exact ih _
      · trivial

end Mute

section Unrefusing

theorem unrefusing_call (q : Stmt) : Unrefusing (Prog.call Exn.db q) := .call trivial fun _ => id

theorem unrefusing_scalarOne (o : Option α) : Unrefusing (scalarOne o) := by
  cases o with
  | none => exact id
  | some a => trivial

/-- The message goes to the kitchen first, then to the session. -/
theorem unrefusing_publish (kitchen session : Channel) (event : RealtimeEvent) :
    Unrefusing (do publish kitchen event; publish session event) :=
  (unrefusing_call _).bind fun _ => unrefusing_call _

theorem unrefusing_publishUpdated (restaurantId : Uuid) (item : OrderItem) (event : RealtimeEvent) :
    Unrefusing (Kitchen.publishUpdated restaurantId item event) :=
  (unrefusing_call _).bind fun _ => (unrefusing_scalarOne _).bind fun _ => unrefusing_publish ..

theorem unrefusing_publishRestored (restaurantId sessionId : Uuid)
    (result : SessionService.RestoreResult) :
    Unrefusing (StaffTables.publishRestored restaurantId sessionId result) := by
  unfold StaffTables.publishRestored
  cases result.action <;> exact unrefusing_publish ..

theorem unrefusing_abandonSession (sessionId restaurantId : Uuid) :
    Unrefusing (Scheduler.abandonSession sessionId restaurantId) := by
  refine (unrefusing_call _).bind fun rows => ?_
  cases Data.sessions rows |>.head? with
  | none => trivial
  | some _ =>
    refine (unrefusing_call _).bind fun _ => Keeps.bind ?_ fun _ => ?_
    · exact (unrefusing_call _).bind fun _ => trivial
    · exact (unrefusing_call _).bind fun _ => unrefusing_publish ..

theorem unrefusing_sweepRows (rows : List StaleSession) : Unrefusing (Scheduler.sweepRows rows) := by
  induction rows with
  | nil => trivial
  | cons row rows ih =>
    refine Keeps.bind ?_ fun _ => ih
    exact (unrefusing_abandonSession ..).tryCatch fun _ _ => unrefusing_call _

end Unrefusing

/-- The program publishes at its end, and then answers. -/
theorem decided_tail {q : Action Unit} {a : β} (h : Unrefusing q) :
    Decided (q >>= fun _ => pure a) :=
  Keeps.final (h.bind fun _ => trivial)

theorem Decided.pure {g : α → β} (h : Decided p) : Decided (p >>= fun a => pure (g a)) :=
  Final.andThen h fun _ => trivial

theorem Mute.decided (h : Mute p) : Decided p := by
  have hp : Decided (p >>= pure) := Final.bind h fun _ => trivial
  rwa [bind_pure] at hp

section Handlers

theorem decided_createOrder (qrToken : String) (body : CreateOrderRequest) :
    Decided (Customer.createOrder qrToken body) := by
  refine Final.bind (bare_resolveTable _).mute fun found => ?_
  refine Final.bind (bare_getOrOpen ..).mute fun opened => ?_
  split
  · trivial
  · refine Final.bind (bare_read ..).mute fun rid => Final.bind (mute_validateItems ..) fun items => ?_
    refine Final.bind (bare_placeOrder ..).mute fun placed => Final.bind (mute_query _) fun order => ?_
    refine Final.bind (bare_scalarOne _).mute fun order => Final.bind (bare_refreshItems _).mute fun rows => ?_
    exact decided_tail (unrefusing_publish ..)

theorem decided_cancelItemCustomer (qrToken : String) (itemId : Uuid) (reason : Option String) :
    Decided (Customer.cancelItemCustomer qrToken itemId reason) := by
  refine Final.bind (bare_resolveTable _).mute fun found => ?_
  refine Final.bind (bare_getOrOpen ..).mute fun opened => Final.bind (bare_read ..).mute fun rid => ?_
  refine Final.bind (mute_query _) fun known => ?_
  cases known with
  | false => trivial
  | true =>
    refine Final.bind (bare_updateItem _ _).translate.mute fun item => ?_
    exact decided_tail (unrefusing_publish ..)

theorem decided_callStaff (qrToken : String) : Decided (Customer.callStaff qrToken) := by
  refine Final.bind (bare_resolveTable _).mute fun found => ?_
  refine Final.bind (bare_getOrOpen ..).mute fun opened => Final.bind (bare_read ..).mute fun tableId => ?_
  refine Final.bind (bare_getCooldown _).mute fun cooldown => Final.bind (mute_query _) fun recent => ?_
  cases recent with
  | true => trivial
  | false =>
    refine Final.bind (bare_insertCall ..).mute fun call => ?_
    exact decided_tail (unrefusing_publish ..)

theorem decided_setItemStatus (user : TokenPayload) (itemId : Uuid) (toStatus : OrderItemStatus) :
    Decided (Kitchen.setItemStatus user itemId toStatus) := by
  refine Final.bind (mute_query _) fun known => ?_
  cases known with
  | false => trivial
  | true =>
    refine Final.bind (bare_setStatus ..).translate.mute fun item => ?_
    exact decided_tail (unrefusing_publishUpdated ..)

theorem decided_cancelItemStaff (user : TokenPayload) (itemId : Uuid) (reason : Option String) :
    Decided (Kitchen.cancelItemStaff user itemId reason) := by
  refine Final.bind (mute_query _) fun known => ?_
  cases known with
  | false => trivial
  | true =>
    refine Final.bind (bare_updateItem _ _).translate.mute fun item => ?_
    exact decided_tail (unrefusing_publishUpdated ..)

/-- The call is acknowledged and published inside the block whose `ValueError` becomes a 404. -/
theorem decided_ackStaffCall (user : TokenPayload) (callId : Uuid) :
    Decided (Kitchen.ackStaffCall user callId) := by
  refine Final.tryCatch ?_ fun e he => ?_
  · refine Final.bind (mute_query _) fun row => ?_
    cases row with
    | none => trivial
    | some call =>
      simp only
      split
      · trivial
      · refine Final.bind (bare_acknowledge ..).mute fun call => ?_
        exact decided_tail (unrefusing_publish ..)
  · cases e <;> exact he

theorem decided_checkoutSession (user : TokenPayload) (sessionId : Uuid) :
    Decided (StaffTables.checkoutSession user sessionId) := by
  refine Final.bind (mute_query _) fun row => ?_
  cases row with
  | none => trivial
  | some tableSession =>
    refine Final.bind (bare_checkout ..).mute fun result => ?_
    cases result with
    | none => trivial
    | some result => exact decided_tail (unrefusing_publish ..)

theorem decided_restoreSession (user : TokenPayload) (sessionId : Uuid) :
    Decided (StaffTables.restoreSession user sessionId) := by
  refine Final.bind (bare_restore ..).translate.mute fun result => ?_
  cases result with
  | none => trivial
  | some result => exact decided_tail (unrefusing_publishRestored ..)

theorem Request.decided (r : Request) : Decided r.handler := by
  cases r with
  | getSessionSnapshot qrToken => exact (bare_getSessionSnapshot qrToken).mute.decided.pure
  | createOrder qrToken body => exact (decided_createOrder qrToken body).pure
  | cancelItemCustomer qrToken itemId reason => exact (decided_cancelItemCustomer ..).pure
  | callStaff qrToken => exact (decided_callStaff qrToken).pure
  | openTable user tableId => exact (bare_openTable ..).mute.decided.pure
  | setItemStatus user itemId toStatus => exact (decided_setItemStatus ..).pure
  | cancelItemStaff user itemId reason => exact (decided_cancelItemStaff ..).pure
  | ackStaffCall user callId => exact (decided_ackStaffCall ..).pure
  | checkoutSession user sessionId => exact (decided_checkoutSession ..).pure
  | restoreSession user sessionId => exact (decided_restoreSession ..).pure
  | wsCustomer qrToken => exact (bare_wsCustomer qrToken).mute.decided.pure
  | runSweep =>
    refine decided_tail ((unrefusing_call _).bind fun rows => ?_)
    cases rows with
    | error e => exact id
    | ok rows => exact unrefusing_sweepRows rows
  | abandonSession sessionId =>
    refine Final.bind (mute_query _) fun row => ?_
    cases row with
    | none => trivial
    | some row => exact decided_tail (unrefusing_abandonSession ..)

end Handlers

section Runs

variable {n : Nat} {owner : Uuid → Uuid} {req : Fin n → Request} {D : Deployment owner}
  {c : Clients n} {t : Fin n}

def Event.publishes (e : Event n) : Prop := e.stmt.Publishes

/-- A client either has published nothing or refuses no more. -/
theorem Deployment.Reaches.decided (hr : D.Reaches req c) (t : Fin n) :
    ((∀ e ∈ own t c.state.history, ¬ e.publishes) ∧ Decided (c.threads t)) ∨
      Unrefusing (c.threads t) := by
  induction hr with
  | refl =>
    left
    refine ⟨fun e he => ?_, (req t).decided⟩
    cases he
  | @tail c₁ c₂ _ hs ih =>
    cases hs with
    | env he => cases he <;> exact ih
    | @exec u q k r σ' hp hx =>
      have hh : σ'.history = c₁.state.history ++ [c₁.state.event u q r σ'.data] := by
        cases hx <;> rfl
      by_cases hu : u = t
      · subst hu
        rw [hp] at ih
        simp only [Function.update_self]
        rcases ih with ⟨hnone, hfinal⟩ | hk
        · by_cases hq : q.Publishes
          · exact .inr (hfinal.1 hq r)
          · refine .inl ⟨fun e he => ?_, hfinal.2 r⟩
            rw [hh, own_self] at he
            rcases List.mem_append.mp he with he | he
            · exact hnone e he
            · rw [List.mem_singleton.mp he]
              exact hq
        · exact .inr (hk.2 r)
      · simp only [Function.update_of_ne (Ne.symm hu), hh, own_other hu]
        exact ih

theorem Deployment.Reaches.refused (hr : D.Reaches req c) {e : Exn} (he : e.Refuses)
    (ha : (c.threads t).answer = some (.error e)) : ∀ x ∈ own t c.state.history, ¬ x.publishes := by
  rcases hr.decided t with ⟨hnone, -⟩ | hk
  · exact hnone
  · rw [Prog.answer_error ha] at hk
    exact absurd he hk

end Runs

end QOrder
