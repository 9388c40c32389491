import QOrder.TokenSessions

/-! The requests of the staff, each run alone on consistent data. The rows that a request finds
decide whether it is served, and a refused one leaves all rows as they were. -/

namespace QOrder

open KeyedTable Concurrency

variable {owner : Uuid → Uuid} {α β : Type} {s s' : Solo} {p : Action α} {user : TokenPayload}

/-- The program raises, and leaves the rows as they were. -/
def Solo.Denies (s : Solo) (p : Action α) : Prop := (∃ e, (s.run p).1 = .error e) ∧ (s.run p).2.data = s.data

theorem Solo.denies_error (e : Exn) (s' : Solo) (h : s.run p = (.error e, s')) (hd : s'.data = s.data) : s.Denies p := by
  rw [Denies, h]
  exact ⟨⟨e, rfl⟩, hd⟩

theorem Solo.not_denies_ok (a : α) (s' : Solo) (h : s.run p = (.ok a, s')) : ¬ s.Denies p := by
  rw [Denies, h]
  rintro ⟨⟨e, he⟩, -⟩
  cases he

/-- The handler only wraps what its endpoint returns. -/
theorem Solo.denies_handler {f : α → β} : s.Denies (p >>= fun a => pure (f a)) ↔ s.Denies p := by
  rcases hrun : s.run p with ⟨answer, s'⟩
  cases answer with
  | ok a => exact iff_of_false (not_denies_ok (f a) s' (Solo.bind_ok hrun)) (not_denies_ok a s' hrun)
  | error e =>
    rw [Denies, Denies, Solo.bind_error hrun, hrun]
    exact ⟨fun h => ⟨⟨e, rfl⟩, h.2⟩, fun h => ⟨⟨e, rfl⟩, h.2⟩⟩

theorem Solo.run_publishBoth (kitchen session : Channel) (event : RealtimeEvent) :
    s.run (do Action.publish kitchen event; Action.publish session event) =
      (.ok (), (s.publish kitchen event).publish session event) := by
  rw [Solo.run_publish, Solo.run_publish_last]

section Items

variable {itemId : Uuid} {toStatus : OrderItemStatus} {reason : Option String} {update : Command}

/-- The item is one of the restaurant, and it can get there from its status. -/
def OrderItem.Moves (i : OrderItem) (itemId restaurantId : Uuid) (now : Timestamp) (toStatus : OrderItemStatus) : Prop :=
  i.id = itemId ∧ i.restaurantId = restaurantId ∧ ∃ allowed, ItemStateService.allowedFrom toStatus = some allowed ∧
    i.status ∈ allowed ∧ (toStatus = .pending → i.undoable now = true)

/-- An update of an item of which it is known which rows it matches. -/
structure Command.Updates (update : Command) (s : Solo) (admits : OrderItem → Prop) : Prop where
  violation : update.violation s.ctx s.view = none
  hits : (∃ i ∈ s.view.items, admits i) → ∃ row, (s.rows update).items.head? = some row
  shows : ∀ row, (s.rows update).items.head? = some row → ∃ i ∈ s.view.items, admits i ∧ row.orderId = i.orderId
  orders : (s.rows update).orders = []

theorem Command.updates_changed {matched : OrderItem → Bool} {f : OrderItem → OrderItem} {admits : OrderItem → Prop}
    (hv : update.violation s.ctx s.view = none) (hrows : s.rows update = { items := changed matched f s.view.items })
    (hm : ∀ i, matched i = true ↔ admits i) (hf : ∀ i, (f i).orderId = i.orderId) : update.Updates s admits where
  violation := hv
  hits := by
    rintro ⟨i, hi, ha⟩
    have hmem : f i ∈ (s.rows update).items := by
      rw [hrows]
      exact mem_changed.mpr ⟨i, hi, (hm i).mpr ha, rfl⟩
    cases hl : (s.rows update).items with
    | nil =>
      rw [hl] at hmem
      cases hmem
    | cons row rest => exact ⟨row, rfl⟩
  shows := by
    intro row hrow
    have hmem := List.mem_of_head? hrow
    rw [hrows] at hmem
    obtain ⟨i, hi, ha, rfl⟩ := mem_changed.mp hmem
    exact ⟨i, hi, (hm i).mp ha, hf i⟩
  orders := by rw [hrows]

theorem ItemStateService.statusUpdate_updates {allowed : List OrderItemStatus} {actor : Option Uuid}
    (ha : allowedFrom toStatus = some allowed) (itemId restaurantId : Uuid) :
    (statusUpdate itemId toStatus actor restaurantId allowed).Updates s
      fun i => i.Moves itemId restaurantId s.clock toStatus := by
  have hmoves (i : OrderItem) : i.Moves itemId restaurantId s.clock toStatus ↔
      i.matchesId itemId restaurantId allowed = true ∧ (toStatus = .pending → i.undoable s.clock = true) := by
    rw [matchesId_iff, OrderItem.Moves, ha]
    simp [and_assoc]
  by_cases hp : toStatus = .pending
  · have hu : statusUpdate itemId toStatus actor restaurantId allowed =
        .undoItem toStatus itemId restaurantId allowed := if_pos hp
    rw [hu]
    refine Command.updates_changed (f := fun i => i.undo toStatus) rfl rfl (fun i => ?_) fun _ => rfl
    rw [Bool.and_eq_true, hmoves]
    simp [hp, Solo.ctx]
  · by_cases hserved : toStatus = .served
    · have hu : statusUpdate itemId toStatus actor restaurantId allowed =
          .serveItem toStatus actor itemId restaurantId allowed := by
        rw [statusUpdate, if_neg hp, if_pos hserved]
      rw [hu]
      refine Command.updates_changed (f := fun i => i.serve toStatus actor s.clock) rfl rfl (fun i => ?_) fun _ => rfl
      rw [hmoves]
      simp [hp]
    · have hu : statusUpdate itemId toStatus actor restaurantId allowed =
          .advanceItem toStatus itemId restaurantId allowed := by
        rw [statusUpdate, if_neg hp, if_neg hserved]
      rw [hu]
      refine Command.updates_changed (f := fun i => i.advance toStatus) rfl rfl (fun i => ?_) fun _ => rfl
      rw [hmoves]
      simp [hp]

/-- What an update of an item and its announcement come to. -/
theorem Solo.denies_moveItem {admits : OrderItem → Prop} {conflict : String} {event : OrderItem → RealtimeEvent}
    (h : s.Rests) (hd : s.data.Ok owner) (hu : update.Updates s admits)
    (hown : ∀ i, admits i → i.id = itemId ∧ i.restaurantId = user.restaurantId) :
    s.Denies (do
      if ← Action.query (.itemExists itemId user.restaurantId) then
        let updatedItem ← translate conflictToHttp (ItemStateService.updateItem update conflict)
        Kitchen.publishUpdated user.restaurantId updatedItem (event updatedItem)
        return updatedItem
      else
        throw Kitchen.itemMissing) ↔ ¬ ∃ i ∈ s.data.items, admits i := by
  have hview := h.view
  cases hq : (Query.itemExists itemId user.restaurantId).eval s.ctx s.catalog s.view with
  | false =>
    refine iff_of_true (denies_error Kitchen.itemMissing s (by rw [Solo.run_query hq]; rfl) rfl) ?_
    rintro ⟨i, hi, ha⟩
    rw [← hview] at hi
    have hnone := List.any_eq_false.mp hq i hi
    simp [hown i ha] at hnone
  | true =>
    rcases hrow : (s.rows update).items.head? with - | row
    · have hnone : ¬ ∃ i ∈ s.data.items, admits i := by
        rw [← hview]
        intro hsome
        obtain ⟨row, hrow'⟩ := hu.hits hsome
        rw [hrow] at hrow'
        cases hrow'
      have hconflict : s.run (translate conflictToHttp (ItemStateService.updateItem update conflict)) =
          (.error (.http 409 conflict), s.write update) := by
        rw [Solo.run_translate, Solo.updateItem_conflict hu.violation hrow]
        rfl
      refine iff_of_true (denies_error (.http 409 conflict) (s.write update) ?_ rfl) hnone
      rw [Solo.run_query hq, if_pos rfl, Solo.bind_error hconflict]
    · obtain ⟨i, hi, ha, horder⟩ := hu.shows row hrow
      rw [hview] at hi
      refine iff_of_false ?_ fun hnone => hnone ⟨i, hi, ha⟩
      let after := ((s.write update).write (.touchSessionOfOrder row.orderId)).commit
      have hmoved : s.run (translate conflictToHttp (ItemStateService.updateItem update conflict)) =
          (.ok row, after) := by
        rw [Solo.run_translate, Solo.updateItem_ok hu.violation hrow conflict]
        rfl
      have horders : after.view.orders = s.data.orders := by
        have hwrites : (s.writes.overlay (s.rows update)).orders = [] := by
          rw [h, Data.overlay_orders, hu.orders]
          rfl
        change overlay (overlay s.data.orders (overlay (s.writes.overlay (s.rows update)).orders [])) [] = _
        rw [hwrites]
        simp
      obtain ⟨order, ho⟩ := Option.isSome_iff_exists.mp (hd.itemOrder i hi)
      have hfound : (Query.orderById row.orderId).eval after.ctx after.catalog after.view = some order := by
        rw [Query.eval, horders, horder]
        exact ho
      have hpublish : after.run (Kitchen.publishUpdated user.restaurantId row (event row)) =
          (.ok (), (after.publish (.kitchen user.restaurantId) (event row)).publish
            (.session user.restaurantId order.tableSessionId) (event row)) := by
        unfold Kitchen.publishUpdated
        rw [Solo.run_query hfound]
        exact Solo.run_publishBoth ..
      refine not_denies_ok row ((after.publish (.kitchen user.restaurantId) (event row)).publish
        (.session user.restaurantId order.tableSessionId) (event row)) ?_
      rw [Solo.run_query hq, if_pos rfl, Solo.bind_ok hmoved, Solo.bind_ok hpublish]
      rfl

theorem Solo.denies_setItemStatus (h : s.Rests) (hd : s.data.Ok owner) :
    s.Denies (Kitchen.setItemStatus user itemId toStatus) ↔
      ¬ ∃ i ∈ s.data.items, i.Moves itemId user.restaurantId s.clock toStatus := by
  cases ha : ItemStateService.allowedFrom toStatus with
  | none =>
    have hnone : ¬ ∃ i ∈ s.data.items, i.Moves itemId user.restaurantId s.clock toStatus := by
      rintro ⟨i, -, -, -, allowed, hallowed, -⟩
      rw [ha] at hallowed
      cases hallowed
    refine iff_of_true ?_ hnone
    unfold Kitchen.setItemStatus ItemStateService.setStatus
    rw [ha]
    cases hq : (Query.itemExists itemId user.restaurantId).eval s.ctx s.catalog s.view with
    | false => exact denies_error Kitchen.itemMissing s (by rw [Solo.run_query hq]; rfl) rfl
    | true => exact denies_error (.http 400 _) s (by rw [Solo.run_query hq]; rfl) rfl
  | some allowed =>
    unfold Kitchen.setItemStatus ItemStateService.setStatus
    rw [ha]
    exact denies_moveItem h hd (ItemStateService.statusUpdate_updates ha itemId user.restaurantId)
      fun i hi => ⟨hi.1, hi.2.1⟩

theorem Solo.denies_cancelItemStaff (h : s.Rests) (hd : s.data.Ok owner) :
    s.Denies (Kitchen.cancelItemStaff user itemId reason) ↔ ¬ ∃ i ∈ s.data.items,
      i.matchesId itemId user.restaurantId [.pending, .cooking, .ready] = true := by
  have hu : Command.Updates (.cancelItem .staff reason itemId user.restaurantId [.pending, .cooking, .ready]) s
      fun i => i.matchesId itemId user.restaurantId [.pending, .cooking, .ready] = true :=
    Command.updates_changed (f := fun i => i.cancel .staff s.clock reason) rfl rfl (fun _ => Iff.rfl) fun _ => rfl
  exact denies_moveItem h hd hu fun i hi => ⟨(matchesId_iff.mp hi).1, (matchesId_iff.mp hi).2.1⟩

end Items

section Calls

variable {callId : Uuid}

variable (user) in
theorem Solo.run_acknowledge {call : StaffCall} (h : s.Rests) (hk : UniqueKeys s.data.calls)
    (hc : lookup callId s.data.calls = some call) :
    ∃ call' s', s.run (StaffCallService.acknowledge callId user.sub) = (.ok call', s') := by
  let update := Command.acknowledgeCall callId s.appClock user.sub
  have hview := h.view
  have hmem := mem_of_lookup hc
  have hid : call.id = callId := key_of_lookup hc
  have hrows : (s.rows update).calls = [call.acknowledge s.appClock user.sub] := by
    change changed (fun c => c.id == callId) (fun c => c.acknowledge s.appClock user.sub) s.view.calls = _
    rw [hview]
    exact changed_eq_singleton (fun c hc => beq_iff_eq.mp hc) hk hc (beq_iff_eq.mpr hid)
  have hv : update.violation s.ctx s.view = none := by
    have hsome : (update.rows s.ctx s.view).calls.isEmpty = false := by
      change (s.rows update).calls.isEmpty = false
      rw [hrows]
      rfl
    change (if (update.rows s.ctx s.view).calls.isEmpty = true then _ else _) = _
    rw [hsome]
    rfl
  let after := (s.write update).commit
  have hfound : (Query.callById callId).eval after.ctx after.catalog after.view =
      some (call.acknowledge s.appClock user.sub) := by
    change lookup callId (overlay (overlay s.data.calls (overlay s.writes.calls (s.rows update).calls)) []) = _
    rw [h, hrows, overlay_nil, lookup_overlay, nil_overlay, lookup_singleton]
    simp [hid]
  refine ⟨call.acknowledge s.appClock user.sub, after, ?_⟩
  unfold StaffCallService.acknowledge
  rw [Solo.run_appNow, Solo.run_command hv, Solo.run_commit, Solo.run_query hfound]
  rfl

theorem Solo.denies_ackStaffCall (h : s.Rests) (hd : s.data.Ok owner) :
    s.Denies (Kitchen.ackStaffCall user callId) ↔
      ¬ ∃ c ∈ s.data.calls, c.id = callId ∧ c.restaurantId = user.restaurantId := by
  have hrun : s.run (Kitchen.ackStaffCall user callId) = _ := Solo.run_translate ..
  have hq : (Query.callOf callId user.restaurantId).eval s.ctx s.catalog s.view =
      (lookup callId s.data.calls).filter fun c => c.restaurantId == user.restaurantId := by
    rw [Query.eval, h.view]
  cases hfound : (lookup callId s.data.calls).filter fun c => c.restaurantId == user.restaurantId with
  | none =>
    have hnone : ¬ ∃ c ∈ s.data.calls, c.id = callId ∧ c.restaurantId = user.restaurantId := by
      rintro ⟨c, hc, hid, hr⟩
      have hlookup : lookup c.id s.data.calls = some c := lookup_of_mem hd.callIds hc
      rw [hid] at hlookup
      rw [hlookup] at hfound
      simp [hr] at hfound
    have hmissing : s.run (StaffCallService.ack callId user.sub user.restaurantId) =
        (.error (.valueError "Yêu cầu gọi nhân viên không tồn tại."), s) := by
      unfold StaffCallService.ack
      rw [Solo.run_query (hq.trans hfound)]
      rfl
    rw [hmissing] at hrun
    exact iff_of_true (denies_error _ s hrun rfl) hnone
  | some call =>
    obtain ⟨hlookup, hr⟩ := Option.filter_eq_some_iff.mp hfound
    refine iff_of_false ?_ fun hnone => hnone ⟨call, mem_of_lookup hlookup, key_of_lookup hlookup, beq_iff_eq.mp hr⟩
    by_cases hdone : call.status = .acknowledged
    · have hack : s.run (StaffCallService.ack callId user.sub user.restaurantId) = (.ok call, s) := by
        unfold StaffCallService.ack
        rw [Solo.run_query (hq.trans hfound)]
        simp only [if_pos hdone]
        rfl
      rw [hack] at hrun
      exact not_denies_ok call s hrun
    · obtain ⟨call', s', hacknowledge⟩ := Solo.run_acknowledge user h hd.callIds hlookup
      obtain ⟨s₂, hpublish⟩ : ∃ s₂, s'.run (StaffCallService.publishAck user.restaurantId call') = (.ok (), s₂) :=
        ⟨_, Solo.run_publishBoth ..⟩
      have hack : s.run (StaffCallService.ack callId user.sub user.restaurantId) = (.ok call', s₂) := by
        unfold StaffCallService.ack
        rw [Solo.run_query (hq.trans hfound)]
        simp only [if_neg hdone]
        rw [Solo.bind_ok hacknowledge, Solo.bind_ok hpublish]
        rfl
      rw [hack] at hrun
      exact not_denies_ok call' s₂ hrun

end Calls

section Tables

variable {tableId : Uuid}

theorem Solo.denies_openTable (h : s.Rests) (hd : s.data.Ok owner) (hids : (s.catalog.tables.map Table.id).Nodup) :
    s.Denies (StaffTables.openTable user tableId) ↔
      ¬ ∃ t ∈ s.catalog.tables, t.id = tableId ∧ t.restaurantId = user.restaurantId ∧ t.isActive = true := by
  unfold StaffTables.openTable
  cases hq : (Query.tableOf tableId user.restaurantId).eval s.ctx s.catalog s.view with
  | none =>
    refine iff_of_true (denies_error _ s (by rw [Solo.run_query hq]; rfl) rfl) ?_
    rintro ⟨t, ht, hid, hr, -⟩
    have hnone := List.find?_eq_none.mp hq t ht
    simp [hid, hr] at hnone
  | some table =>
    have hm : table ∈ s.catalog.tables := List.mem_of_find?_eq_some hq
    have hp := List.find?_some hq
    simp only [Bool.and_eq_true, beq_iff_eq] at hp
    by_cases hactive : table.isActive = true
    · refine iff_of_false ?_ fun hnone => hnone ⟨table, hm, hp.1, hp.2, hactive⟩
      obtain ⟨x, s', ho, -⟩ := Solo.getOrOpen_opens h hd table.id user.restaurantId (some user.sub)
      have hopen : s.run (SessionService.getOrOpen table.id user.restaurantId (some user.sub)) =
          (.ok ⟨x, false⟩, s') := by
        rw [Solo.run_getOrOpen h, ho]
      refine not_denies_ok x s' ?_
      rw [Solo.run_query hq]
      simp only [if_pos hactive]
      rw [Solo.bind_ok hopen]
      rfl
    · refine iff_of_true (denies_error (.http 400 "Bàn đã ngừng hoạt động.") s ?_ rfl) ?_
      · rw [Solo.run_query hq]
        simp only [if_neg hactive]
        rfl
      · rintro ⟨t, ht, hid, -, ha⟩
        rw [List.inj_on_of_nodup_map hids ht hm (hid.trans hp.1.symm)] at ha
        exact hactive ha

end Tables

end QOrder
