import QOrder.StaffAnswers

/-! Checkouts and restorations, each run alone on consistent data. Which of them are served is told
by the session's row, by its table and by whether its total can be stored. -/

namespace QOrder

open KeyedTable Concurrency

variable {owner : Uuid → Uuid} {s : Solo} {user : TokenPayload} {sessionId restaurantId : Uuid}
  {loaded : List TableSession} {x : TableSession}

/-- The total of the session is one that its column holds. -/
def Data.Payable (d : Data) (sessionId : Uuid) : Prop :=
  -numericLimit < servedTotal (d.itemsOf sessionId) ∧ servedTotal (d.itemsOf sessionId) < numericLimit

variable (sessionId) in
theorem Solo.run_cancelIfAny (hk : UniqueKeys s.data.items) (ho : s.writes.orders = []) (hi : s.writes.items = []) :
    ∃ s', s.run (SessionService.cancelIfAny sessionId
        ((Query.unservedItems sessionId).eval s.ctx s.catalog s.view)) = (.ok (), s') ∧ s'.data = s.data ∧
      servedTotal (s'.view.itemsOf sessionId) = servedTotal (s.data.itemsOf sessionId) := by
  have hitems : s.view.itemsOf sessionId = s.data.itemsOf sessionId := Data.itemsOf_of_nil ho hi
  unfold SessionService.cancelIfAny
  by_cases hany : ((Query.unservedItems sessionId).eval s.ctx s.catalog s.view).isEmpty = true
  · rw [if_pos hany]
    exact ⟨s, rfl, rfl, by rw [hitems]⟩
  · rw [if_neg hany, Solo.run_command rfl]
    let s' := s.write (.cancelUnserved sessionId "table_closed")
    have horders : s'.writes.orders = [] := by
      change overlay s.writes.orders [] = []
      rw [ho, overlay_nil]
    have hcancelled : s'.writes.items = s.data.cancelledItems sessionId s.clock "table_closed" := by
      change overlay s.writes.items (s.view.cancelledItems sessionId s.clock "table_closed") = _
      rw [hi, nil_overlay, Data.cancelledItems, hitems, Data.cancelledItems]
    have hview : s'.view.itemsOf sessionId =
        (s.data.itemsOf sessionId).map (OrderItem.cancelIfUnserved s.clock "table_closed") := by
      have hafter := Data.itemsOf_cancelled hk (List.append_nil _).symm horders hcancelled
      rwa [List.append_nil] at hafter
    exact ⟨s', rfl, rfl, by rw [hview, servedTotal_cancel]⟩

theorem Solo.run_readBack (hs : (lookup sessionId s.view.sessions).isSome) (loaded : List TableSession) :
    ∃ row, s.run (SessionService.readBack sessionId loaded) = (.ok row, s) := by
  obtain ⟨row, hrow⟩ := Option.isSome_iff_exists.mp hs
  have hq : (Query.sessionById sessionId).eval s.ctx s.catalog s.view = some row := hrow
  refine ⟨loadedInstance loaded row, ?_⟩
  unfold SessionService.readBack
  rw [Solo.run_query hq]
  rfl

/-- A session that is committed is there for every transaction. -/
theorem Solo.session_viewed (hs : (lookup sessionId s.data.sessions).isSome) :
    (lookup sessionId s.view.sessions).isSome := by
  rw [Solo.view, Data.overlay_sessions, lookup_overlay]
  obtain ⟨x, hx⟩ := Option.isSome_iff_exists.mp hs
  rw [hx]
  cases lookup sessionId s.writes.sessions <;> rfl

theorem Solo.run_settle (hk : UniqueKeys s.data.items) (ho : s.writes.orders = []) (hi : s.writes.items = [])
    (hs : (lookup sessionId s.data.sessions).isSome) :
    (s.data.Payable sessionId → ∃ result s',
      s.run (SessionService.settle sessionId restaurantId loaded) = (.ok result, s')) ∧
    (¬ s.data.Payable sessionId → ∃ s',
      s.run (SessionService.settle sessionId restaurantId loaded) = (.error (.db .dataError), s') ∧ s'.data = s.data) := by
  obtain ⟨s₁, hcancel, hdata, htotal⟩ := Solo.run_cancelIfAny sessionId hk ho hi
  let total := servedTotal (s₁.view.itemsOf sessionId)
  have hv : Command.violation s₁.ctx s₁.view (.setTotal sessionId total) =
      if total ≤ -numericLimit ∨ numericLimit ≤ total then some .dataError else none := rfl
  have hq : (Query.servedTotal sessionId).eval s₁.ctx s₁.catalog s₁.view = total := rfl
  unfold SessionService.settle
  rw [Solo.run_query rfl, Solo.bind_ok hcancel, Solo.run_query hq]
  constructor
  · intro hpay
    rw [Data.Payable, ← htotal] at hpay
    have hin : ¬ (total ≤ -numericLimit ∨ numericLimit ≤ total) :=
      not_or.mpr ⟨not_le.mpr hpay.1, not_le.mpr hpay.2⟩
    rw [if_neg hin] at hv
    let s₂ := s₁.write (.setTotal sessionId total)
    let s₃ := (s₂.write (.dismissPending sessionId restaurantId)).commit
    have hkept : (lookup sessionId s₃.data.sessions).isSome := by
      change (lookup sessionId (s₂.write (.dismissPending sessionId restaurantId)).view.sessions).isSome
      refine Solo.session_viewed ?_
      change (lookup sessionId s₁.data.sessions).isSome
      rw [hdata]
      exact hs
    obtain ⟨row, hread⟩ := Solo.run_readBack (Solo.session_viewed hkept) loaded
    refine ⟨⟨row, total, (Query.unservedItems sessionId).eval s.ctx s.catalog s.view,
      (s₂.rows (.dismissPending sessionId restaurantId)).calls.length⟩, s₃, ?_⟩
    rw [Solo.run_command hv]
    unfold StaffCallService.dismissPending
    rw [bind_assoc, Solo.run_command rfl, pure_bind, Solo.run_commit, Solo.bind_ok hread]
    rfl
  · intro hpay
    rw [Data.Payable, ← htotal] at hpay
    have hout : total ≤ -numericLimit ∨ numericLimit ≤ total :=
      (not_and_or.mp hpay).imp not_lt.mp not_lt.mp
    rw [if_pos hout] at hv
    exact ⟨s₁.abort, Solo.run_command_fails hv _, hdata⟩

/-- The transaction goes on after an update of the session's row. -/
theorem Solo.settle_after (update : Command) (h : s.Rests) (hd : s.data.Ok owner) (hx : x ∈ s.data.sessions)
    (ho : (s.rows update).orders = []) (hi : (s.rows update).items = [])
    (restaurantId : Uuid) :
    (s.data.Payable x.id → ∃ result s',
      (s.write update).run (SessionService.settle x.id restaurantId [x]) = (.ok result, s')) ∧
    (¬ s.data.Payable x.id → ∃ s',
      (s.write update).run (SessionService.settle x.id restaurantId [x]) = (.error (.db .dataError), s') ∧
        s'.data = s.data) := by
  have horders : (s.write update).writes.orders = [] := by
    change overlay s.writes.orders (s.rows update).orders = []
    rw [h, ho]
    rfl
  have hitems : (s.write update).writes.items = [] := by
    change overlay s.writes.items (s.rows update).items = []
    rw [h, hi]
    rfl
  have hsome : (lookup x.id (s.write update).data.sessions).isSome := by
    change (lookup (key x) s.data.sessions).isSome
    rw [lookup_of_mem hd.sessionIds hx]
    rfl
  exact Solo.run_settle (s := s.write update) hd.itemIds horders hitems hsome

theorem TableSession.matchesId_iff {status : SessionStatus} : x.matchesId sessionId restaurantId status = true ↔
    x.id = sessionId ∧ x.restaurantId = restaurantId ∧ x.status = status := by
  simp [TableSession.matchesId, and_assoc]

/-- The update of one session finds its row. -/
theorem Solo.session_matched {status : SessionStatus} {f : TableSession → TableSession} (hd : s.data.Ok owner)
    (hx : x ∈ s.data.sessions) (hm : x.matchesId sessionId restaurantId status = true) :
    changed (fun y => y.matchesId sessionId restaurantId status) f s.data.sessions = [f x] := by
  obtain ⟨hid, -, -⟩ := TableSession.matchesId_iff.mp hm
  refine changed_eq_singleton (k := sessionId) (fun y hy => (TableSession.matchesId_iff.mp hy).1) hd.sessionIds ?_ hm
  rw [← hid]
  exact lookup_of_mem hd.sessionIds hx

theorem Solo.sessionOf_viewed (h : s.Rests) (hd : s.data.Ok owner) :
    (Query.sessionOf sessionId restaurantId).eval s.ctx s.catalog s.view = some x ↔
      x ∈ s.data.sessions ∧ x.id = sessionId ∧ x.restaurantId = restaurantId := by
  rw [Query.eval, h.view, Option.filter_eq_some_iff, beq_iff_eq, ← and_assoc]
  refine and_congr_left fun _ => ⟨fun hx => ⟨mem_of_lookup hx, key_of_lookup hx⟩, fun hx => ?_⟩
  rw [← hx.2]
  exact lookup_of_mem hd.sessionIds hx.1

theorem Solo.denies_checkoutSession (h : s.Rests) (hd : s.data.Ok owner) :
    s.Denies (StaffTables.checkoutSession user sessionId) ↔
      ¬ ((∃ x ∈ s.data.sessions, x.matchesId sessionId user.restaurantId .opened = true) ∧ s.data.Payable sessionId) := by
  let close := Command.closeSession sessionId user.restaurantId
  have hrows : (s.rows close).sessions = changed (fun x => x.matchesId sessionId user.restaurantId .opened)
      (fun x => x.close s.clock) s.data.sessions := by
    change changed _ _ s.view.sessions = _
    rw [h.view]
    rfl
  unfold StaffTables.checkoutSession
  cases hq : (Query.sessionOf sessionId user.restaurantId).eval s.ctx s.catalog s.view with
  | none =>
    refine iff_of_true (denies_error StaffTables.sessionMissing s (by rw [Solo.run_query hq]; rfl) rfl) ?_
    rintro ⟨⟨x, hx, hm⟩, -⟩
    obtain ⟨hid, hr, -⟩ := TableSession.matchesId_iff.mp hm
    rw [(Solo.sessionOf_viewed h hd).mpr ⟨hx, hid, hr⟩] at hq
    cases hq
  | some x =>
    obtain ⟨hx, rfl, hr⟩ := (Solo.sessionOf_viewed h hd).mp hq
    have hopened : (∃ y ∈ s.data.sessions, y.matchesId x.id user.restaurantId .opened = true) ↔ x.status = .opened := by
      constructor
      · rintro ⟨y, hy, hm⟩
        obtain ⟨hid, -, hs⟩ := TableSession.matchesId_iff.mp hm
        rw [← eq_of_key_eq hd.sessionIds hy hx hid]
        exact hs
      · exact fun hs => ⟨x, hx, TableSession.matchesId_iff.mpr ⟨rfl, hr, hs⟩⟩
    rw [hopened]
    by_cases hs : x.status = .opened
    · have hone : (s.rows close).sessions.head? = some (x.close s.clock) := by
        rw [hrows, Solo.session_matched hd hx (TableSession.matchesId_iff.mpr ⟨rfl, hr, hs⟩)]
        rfl
      have hsettle := Solo.settle_after close h hd hx rfl rfl user.restaurantId
      by_cases hpay : s.data.Payable x.id
      · obtain ⟨result, s', hrun⟩ := hsettle.1 hpay
        have hcheckout : s.run (SessionService.checkout x.id user.restaurantId [x]) = (.ok (some result), s') := by
          unfold SessionService.checkout
          rw [Solo.run_command rfl, hone]
          dsimp only
          rw [Solo.bind_ok hrun]
          rfl
        obtain ⟨s₂, hpublish⟩ : ∃ s₂, s'.run (StaffTables.publishClosed user.restaurantId x.id result.session
            result.totalAmount) = (.ok (), s₂) := ⟨_, Solo.run_publishBoth ..⟩
        refine iff_of_false (not_denies_ok result s₂ ?_) fun hno => hno ⟨hs, hpay⟩
        rw [Solo.run_query hq]
        dsimp only
        rw [Solo.bind_ok hcheckout]
        dsimp only
        rw [Solo.bind_ok hpublish]
        rfl
      · obtain ⟨s', hrun, hdata⟩ := hsettle.2 hpay
        have hcheckout : s.run (SessionService.checkout x.id user.restaurantId [x]) = (.error (.db .dataError), s') := by
          unfold SessionService.checkout
          rw [Solo.run_command rfl, hone]
          dsimp only
          rw [Solo.bind_error hrun]
        refine iff_of_true (denies_error (.db .dataError) s' ?_ hdata) fun hyes => hpay hyes.2
        rw [Solo.run_query hq]
        dsimp only
        rw [Solo.bind_error hcheckout]
    · have hnone : (s.rows close).sessions.head? = none := by
        have hempty : (s.data.sessions.filter fun y => y.matchesId x.id user.restaurantId .opened) = [] := by
          refine List.filter_eq_nil_iff.mpr fun y hy hm => hs (hopened.mp ⟨y, hy, hm⟩)
        rw [hrows, changed, hempty]
        rfl
      have hcheckout : s.run (SessionService.checkout x.id user.restaurantId [x]) = (.ok none, s.write close) := by
        unfold SessionService.checkout
        rw [Solo.run_command rfl, hnone]
        rfl
      refine iff_of_true (denies_error (.http 409 "Phiên bàn đã được đóng hoặc bỏ trước đó. Không thể checkout lại.")
        (s.write close) ?_ rfl) fun hyes => hs hyes.1
      rw [Solo.run_query hq]
      dsimp only
      rw [Solo.bind_ok hcheckout]
      rfl

/-- The session has been abandoned for a day at most, and its table is free or its total can be stored. -/
def Data.Restorable (d : Data) (now : Timestamp) (sessionId restaurantId : Uuid) : Prop :=
  ∃ x ∈ d.sessions, x.matchesId sessionId restaurantId .abandoned = true ∧
    (∃ at_, x.abandonedAt = some at_ ∧ now - at_ ≤ hours 24) ∧ (d.openOn x.tableId = [] ∨ d.Payable sessionId)

theorem Solo.run_restoreToOpen (h : s.Rests) (hd : s.data.Ok owner) (hx : x ∈ s.data.sessions)
    (hm : x.matchesId x.id restaurantId .abandoned = true) (hfree : s.data.openOn x.tableId = []) :
    ∃ result s', s.run (SessionService.restoreToOpen x restaurantId) = (.ok result, s') := by
  let reopen := Command.reopenSession x.id restaurantId
  have hrows : (s.rows reopen).sessions = [x.reopen s.clock] := by
    change changed _ _ s.view.sessions = _
    rw [h.view]
    exact Solo.session_matched hd hx hm
  have hv : reopen.violation s.ctx s.view = none := by
    have hentries : reopen.indexEntries s.ctx s.view = [(x.tableId, x.id)] := by
      change (s.rows reopen).sessions.map (fun y => (y.tableId, y.id)) = _
      rw [hrows]
      rfl
    have hnone : (s.view.sessions.any fun y => y.tableId == x.tableId && y.status == .opened && y.id != x.id) = false := by
      rw [h.view, List.any_eq_false]
      intro y hy hp
      simp only [Bool.and_eq_true] at hp
      have hmem : y ∈ s.data.openOn x.tableId := List.mem_filter.mpr ⟨hy, by simp [hp.1.1, hp.1.2]⟩
      rw [hfree] at hmem
      cases hmem
    unfold Command.violation
    rw [hentries, List.any_cons, List.any_nil, Bool.or_false, hnone, if_neg Bool.false_ne_true]
  let s₂ := (s.write reopen).commit
  have hkept : (lookup x.id s₂.data.sessions).isSome := by
    change (lookup x.id (s.write reopen).view.sessions).isSome
    refine Solo.session_viewed ?_
    change (lookup (key x) s.data.sessions).isSome
    rw [lookup_of_mem hd.sessionIds hx]
    rfl
  obtain ⟨row, hread⟩ := Solo.run_readBack (Solo.session_viewed hkept) [x]
  refine ⟨{ session := row, action := .restored }, s₂, ?_⟩
  unfold SessionService.restoreToOpen
  rw [Solo.run_command hv, hrows]
  dsimp only [List.head?_cons]
  rw [Solo.run_commit, Solo.bind_ok hread]
  rfl

theorem Solo.run_directCheckout (h : s.Rests) (hd : s.data.Ok owner) (hx : x ∈ s.data.sessions)
    (hm : x.matchesId x.id restaurantId .abandoned = true) :
    (s.data.Payable x.id → ∃ result s', s.run (SessionService.directCheckout x restaurantId) = (.ok result, s')) ∧
    (¬ s.data.Payable x.id → ∃ s', s.run (SessionService.directCheckout x restaurantId) = (.error (.db .dataError), s') ∧
      s'.data = s.data) := by
  let close := Command.closeAbandoned x.id restaurantId
  have hrows : (s.rows close).sessions = [x.close s.clock] := by
    change changed _ _ s.view.sessions = _
    rw [h.view]
    exact Solo.session_matched hd hx hm
  have hsettle := Solo.settle_after close h hd hx rfl rfl restaurantId
  unfold SessionService.directCheckout
  rw [Solo.run_command rfl, hrows]
  dsimp only [List.head?_cons]
  constructor
  · intro hpay
    obtain ⟨result, s', hrun⟩ := hsettle.1 hpay
    rw [Solo.bind_ok hrun]
    exact ⟨_, s', rfl⟩
  · intro hpay
    obtain ⟨s', hrun, hdata⟩ := hsettle.2 hpay
    rw [Solo.bind_error hrun]
    exact ⟨s', rfl, hdata⟩

theorem Solo.run_restoreAbandoned (h : s.Rests) (hd : s.data.Ok owner) (hx : x ∈ s.data.sessions)
    (hm : x.matchesId x.id restaurantId .abandoned = true) :
    (s.data.openOn x.tableId = [] ∨ s.data.Payable x.id →
      ∃ result s', s.run (SessionService.restoreAbandoned x restaurantId) = (.ok result, s')) ∧
    (¬ (s.data.openOn x.tableId = [] ∨ s.data.Payable x.id) →
      ∃ s', s.run (SessionService.restoreAbandoned x restaurantId) = (.error (.db .dataError), s') ∧
        s'.data = s.data) := by
  have hq : (Query.openSessions x.tableId).eval s.ctx s.catalog s.view = s.data.openOn x.tableId := by
    rw [Query.eval, h.view]
    rfl
  unfold SessionService.restoreAbandoned findOpenSession
  simp only [bind_assoc]
  rw [Solo.run_query hq]
  rcases hd.openOn x.tableId with hfree | ⟨y, hy⟩
  · rw [hfree]
    exact ⟨fun _ => Solo.run_restoreToOpen h hd hx hm hfree, fun hno => absurd (.inl rfl) hno⟩
  · have hdirect := Solo.run_directCheckout h hd hx hm
    rw [hy]
    refine ⟨fun hpay => hdirect.1 ?_, fun hpay => hdirect.2 fun hyes => hpay (.inr hyes)⟩
    rcases hpay with hpay | hpay
    · cases hpay
    · exact hpay

variable (sessionId restaurantId) in
theorem Solo.run_restore (h : s.Rests) (hd : s.data.Ok owner) :
    (s.data.Restorable s.appClock sessionId restaurantId →
      ∃ result s', s.run (SessionService.restore sessionId restaurantId) = (.ok (some result), s')) ∧
    (¬ s.data.Restorable s.appClock sessionId restaurantId →
      s.run (SessionService.restore sessionId restaurantId) = (.ok none, s) ∨
        ∃ e s', s.run (SessionService.restore sessionId restaurantId) = (.error e, s') ∧ s'.data = s.data) := by
  unfold SessionService.restore
  cases hq : (Query.sessionOf sessionId restaurantId).eval s.ctx s.catalog s.view with
  | none =>
    rw [Solo.run_query hq]
    refine ⟨?_, fun _ => .inl rfl⟩
    rintro ⟨x, hx, hm, -⟩
    obtain ⟨hid, hr, -⟩ := TableSession.matchesId_iff.mp hm
    rw [(Solo.sessionOf_viewed h hd).mpr ⟨hx, hid, hr⟩] at hq
    cases hq
  | some x =>
    obtain ⟨hx, rfl, hr⟩ := (Solo.sessionOf_viewed h hd).mp hq
    have hown : s.data.Restorable s.appClock x.id restaurantId ↔ x.status = .abandoned ∧
        (∃ at_, x.abandonedAt = some at_ ∧ s.appClock - at_ ≤ hours 24) ∧
          (s.data.openOn x.tableId = [] ∨ s.data.Payable x.id) := by
      constructor
      · rintro ⟨y, hy, hm, hrest⟩
        obtain ⟨hid, -, hs⟩ := TableSession.matchesId_iff.mp hm
        obtain rfl := eq_of_key_eq hd.sessionIds hy hx hid
        exact ⟨hs, hrest⟩
      · rintro ⟨hs, hrest⟩
        exact ⟨x, hx, TableSession.matchesId_iff.mpr ⟨rfl, hr, hs⟩, hrest⟩
    rw [hown, Solo.run_query hq]
    dsimp only
    by_cases hs : x.status = .abandoned
    · rw [if_neg (not_not_intro hs)]
      cases hat : x.abandonedAt with
      | none =>
        refine ⟨?_, fun _ => .inr ⟨_, s, rfl, rfl⟩⟩
        rintro ⟨-, ⟨at_, hat', -⟩, -⟩
        cases hat'
      | some at_ =>
        dsimp only
        rw [Solo.run_appNow]
        by_cases hlate : hours 24 < s.appClock - at_
        · rw [if_pos hlate]
          refine ⟨?_, fun _ => .inr ⟨_, s, rfl, rfl⟩⟩
          rintro ⟨-, ⟨at', hat', hin⟩, -⟩
          obtain rfl := Option.some.inj hat'
          exact absurd hlate (not_lt.mpr hin)
        · have hruns := Solo.run_restoreAbandoned h hd hx (TableSession.matchesId_iff.mpr ⟨rfl, hr, hs⟩)
          rw [if_neg hlate]
          constructor
          · rintro ⟨-, -, hrest⟩
            obtain ⟨result, s', hrun⟩ := hruns.1 hrest
            rw [Solo.bind_ok hrun]
            exact ⟨result, s', rfl⟩
          · intro hno
            have hrest : ¬ (s.data.openOn x.tableId = [] ∨ s.data.Payable x.id) :=
              fun hrest => hno ⟨hs, ⟨at_, rfl, not_lt.mp hlate⟩, hrest⟩
            obtain ⟨s', hrun, hdata⟩ := hruns.2 hrest
            rw [Solo.bind_error hrun]
            exact .inr ⟨_, s', rfl, hdata⟩
    · rw [if_pos hs]
      exact ⟨fun hyes => absurd hyes.1 hs, fun _ => .inr ⟨_, s, rfl, rfl⟩⟩

theorem Solo.run_publishRestored (s : Solo) (restaurantId sessionId : Uuid) (result : SessionService.RestoreResult) :
    ∃ s', s.run (StaffTables.publishRestored restaurantId sessionId result) = (.ok (), s') := by
  unfold StaffTables.publishRestored
  cases result.action with
  | restored => exact ⟨_, Solo.run_publishBoth ..⟩
  | checkedOut => exact ⟨_, Solo.run_publishBoth ..⟩

theorem Solo.denies_restoreSession (h : s.Rests) (hd : s.data.Ok owner) :
    s.Denies (StaffTables.restoreSession user sessionId) ↔
      ¬ s.data.Restorable s.appClock sessionId user.restaurantId := by
  have hservice := Solo.run_translate s (SessionService.restore sessionId user.restaurantId) (valueErrorToHttp 400)
  have hruns := Solo.run_restore sessionId user.restaurantId h hd
  unfold StaffTables.restoreSession
  by_cases hyes : s.data.Restorable s.appClock sessionId user.restaurantId
  · obtain ⟨result, s', hrun⟩ := hruns.1 hyes
    obtain ⟨s₂, hpublish⟩ := Solo.run_publishRestored s' user.restaurantId sessionId result
    rw [hrun] at hservice
    refine iff_of_false (not_denies_ok result s₂ ?_) (not_not_intro hyes)
    rw [Solo.bind_ok hservice]
    dsimp only
    rw [Solo.bind_ok hpublish]
    rfl
  · refine iff_of_true ?_ hyes
    rcases hruns.2 hyes with hrun | ⟨e, s', hrun, hdata⟩
    · rw [hrun] at hservice
      refine denies_error StaffTables.sessionMissing s ?_ rfl
      rw [Solo.bind_ok hservice]
      rfl
    · rw [hrun] at hservice
      exact denies_error _ s' (Solo.bind_error hservice) hdata

end QOrder
