import QOrder.CustomerMenu

/-! Tokens over runs. The endpoints that carry a token accept the latest token of an active table,
and their answers are about the session that is open at the table. -/

namespace QOrder

open KeyedTable Concurrency

section Answers

variable {owner : Uuid → Uuid} {s s₁ : Solo} {qrToken : String} {table : Table} {restaurant : Restaurant}
  {session : TableSession} {itemId : Uuid} {reason : Option String} {body : CreateOrderRequest}

/-- The answer is about the session, by the rows that are committed. -/
def Attends (sessionId : Uuid) (d : Data) : Response → Prop
  | .snapshot session _ => session.id = sessionId
  | .order response => ∃ o ∈ d.orders, o.id = response.id ∧ o.tableSessionId = sessionId
  | .item item => ∃ o ∈ d.orders, o.id = item.orderId ∧ o.tableSessionId = sessionId
  | .call (some call) => call ∈ d.calls ∧ call.tableSessionId = sessionId
  | .call none => True
  | .subscribed (some (.session _ id)) => id = sessionId
  | _ => False

/-- How a request ends whose token resolves. -/
structure Solo.Served (sessionId : Uuid) (out : Except Exn Response × Solo) : Prop where
  accepted : Accepted out.1
  attends : ∀ a, out.1 = .ok a → Attends sessionId out.2.data a

theorem Solo.run_getSessionSnapshot (h : s.Rests) (hr : s.catalog.resolve qrToken = .ok (table, restaurant))
    (ho : s.getOrOpen table.id restaurant.id none = (.ok ⟨session, false⟩, s₁)) :
    ∃ items, s.run (Customer.getSessionSnapshot qrToken) = (.ok (session, items), s₁) := by
  refine ⟨(Query.itemsOfSession session.id).eval s₁.ctx s₁.catalog s₁.view, ?_⟩
  unfold Customer.getSessionSnapshot
  rw [Solo.resolve_ok hr]
  dsimp only
  rw [Solo.bind_ok (by rw [Solo.run_getOrOpen h, ho]), Solo.run_query rfl]
  rfl

theorem Solo.run_resolveQrToken (s : Solo) (qrToken : String) : s.run (Gateway.resolveQrToken qrToken) =
    (.ok ((s.catalog.resolve qrToken).toOption.map fun x => (x.1, x.2.id)), s) := by
  unfold Gateway.resolveQrToken Catalog.resolve
  cases ht : s.catalog.activeTable qrToken with
  | none =>
    have hq : (Query.tableByToken qrToken).eval s.ctx s.catalog s.view = none := ht
    rw [Solo.run_query hq]
    rfl
  | some table =>
    have hq : (Query.tableByToken qrToken).eval s.ctx s.catalog s.view = some table := ht
    rw [Solo.run_query hq]
    dsimp only
    have hq' : (Query.activeRestaurant table.restaurantId).eval s.ctx s.catalog s.view =
      s.catalog.restaurants.find? fun r => r.id == table.restaurantId && r.isActive := rfl
    rw [Solo.run_query hq']
    cases s.catalog.restaurants.find? fun r => r.id == table.restaurantId && r.isActive <;> rfl

theorem Solo.run_wsCustomer (h : s.Rests) (hr : s.catalog.resolve qrToken = .ok (table, restaurant))
    (ho : s.getOrOpen table.id restaurant.id none = (.ok ⟨session, false⟩, s₁)) :
    s.run (Gateway.wsCustomer qrToken) = (.ok (some (.session restaurant.id session.id)), s₁) := by
  unfold Gateway.wsCustomer
  rw [Solo.bind_ok (Solo.run_resolveQrToken s qrToken), hr]
  dsimp only [Except.toOption, Option.map_some]
  rw [Solo.bind_ok (by rw [Solo.run_getOrOpen h, ho])]
  rfl

theorem Solo.run_insertCall (hrests : s.Rests) (tableId sessionId restaurantId : Uuid) :
    ∃ call s', s.run (StaffCallService.insertCall tableId sessionId restaurantId) = (.ok call, s') ∧
      call ∈ s'.data.calls ∧ call.tableSessionId = sessionId := by
  let s₂ := s.write (.touchSession sessionId)
  let s₃ := s₂.write (.insertCall restaurantId tableId sessionId)
  let call : StaffCall :=
    { id := s₂.nextUuid, restaurantId, tableId, tableSessionId := sessionId, status := .pending
      createdAt := s₂.clock, acknowledgedAt := none, acknowledgedBy := none }
  have hcalls : s₃.writes.calls = [call] := by
    change overlay (overlay s.writes.calls []) [call] = [call]
    rw [hrests, overlay_nil]
    exact nil_overlay _
  have hlook : lookup call.id s₃.commit.data.calls = some call := by
    change lookup call.id (overlay s.data.calls s₃.writes.calls) = some call
    rw [hcalls, lookup_overlay, lookup_singleton]
    simp
  have hview : s₃.commit.view = s₃.commit.data := Solo.Rests.view rfl
  have hq : (Query.callById call.id).eval s₃.commit.ctx s₃.commit.catalog s₃.commit.view = some call := by
    rw [hview]
    exact hlook
  refine ⟨call, s₃.commit, ?_, mem_of_lookup hlook, rfl⟩
  unfold StaffCallService.insertCall
  rw [Solo.run_command rfl, Solo.run_command rfl]
  change s₃.run (Action.commit >>= fun _ => Action.query (.callById call.id) >>= Action.scalarOne) = _
  rw [Solo.run_commit, Solo.run_query hq]
  rfl

/-- A call is refused within the cooldown, and committed elsewhere. -/
theorem Solo.run_callStaff (h : s.Rests) (hr : s.catalog.resolve qrToken = .ok (table, restaurant))
    (ho : s.getOrOpen table.id restaurant.id none = (.ok ⟨session, false⟩, s₁)) (hrests : s₁.Rests) :
    (s.run (Customer.callStaff qrToken)).1 = .ok none ∨
      ∃ call, (s.run (Customer.callStaff qrToken)).1 = .ok (some call) ∧
        call ∈ (s.run (Customer.callStaff qrToken)).2.data.calls ∧ call.tableSessionId = session.id := by
  have hrun : s.run (Customer.callStaff qrToken) =
      s₁.run (StaffCallService.create table.id session.id restaurant.id) := by
    unfold Customer.callStaff
    rw [Solo.resolve_ok hr]
    dsimp only
    rw [Solo.bind_ok (by rw [Solo.run_getOrOpen h, ho])]
    rfl
  rw [hrun]
  unfold StaffCallService.create StaffCallService.getCooldown
  simp only [bind_assoc]
  rw [Solo.run_query rfl, pure_bind]
  cases hrecent : (Query.recentCall table.id (((Query.cooldown restaurant.id).eval s₁.ctx s₁.catalog
      s₁.view).getD StaffCallService.defaultCooldownSeconds)).eval s₁.ctx s₁.catalog s₁.view with
  | true =>
    rw [Solo.run_query hrecent]
    exact .inl rfl
  | false =>
    obtain ⟨call, s', hinsert, hmem, hsession⟩ := Solo.run_insertCall hrests table.id session.id restaurant.id
    rw [Solo.run_query hrecent, if_neg Bool.false_ne_true, Solo.bind_ok hinsert]
    exact .inr ⟨call, rfl, hmem, hsession⟩

theorem Solo.Opens.items {tableId restaurantId : Uuid} {openedBy : Option Uuid}
    (h : s.Opens tableId restaurantId openedBy session s₁) : s₁.data.items = s.data.items := by
  rcases h.found with ⟨rfl, -⟩ | ⟨rfl, -, -⟩
  · rfl
  · exact overlay_nil _

/-- The row that a customer's cancellation writes is an item of the session. -/
theorem Solo.cancelled_inSession {restaurantId : Uuid} {row : OrderItem} (hrests : s.Rests)
    (hk : UniqueKeys s.data.items) (hin : (Query.itemInSession itemId session.id restaurantId).eval s.ctx s.catalog
      s.view = true) (hrow : (s.rows (.cancelItem .customer reason itemId restaurantId [.pending])).items.head? = some row) :
    ∃ o ∈ s.data.orders, o.id = row.orderId ∧ o.tableSessionId = session.id := by
  rw [Query.eval, hrests.view] at hin
  obtain ⟨i, hi, hp⟩ := List.any_eq_true.mp hin
  simp only [Bool.and_eq_true, beq_iff_eq] at hp
  obtain ⟨hmem, hsession⟩ := List.mem_filter.mp hi
  have hchanged := List.mem_of_mem_head? hrow
  rw [Solo.rows, Command.rows, hrests.view] at hchanged
  obtain ⟨i', hi', hp', rfl⟩ := mem_changed.mp hchanged
  have hid : i'.id = itemId := by
    simp only [OrderItem.matchesId, Bool.and_eq_true, beq_iff_eq] at hp'
    exact hp'.1.1
  obtain rfl : i' = i := eq_of_key_eq hk hi' hmem (hid.trans hp.1.symm)
  obtain ⟨o, ho, heq⟩ := List.any_eq_true.mp hsession
  simp only [Bool.and_eq_true, beq_iff_eq] at heq
  exact ⟨o, ho, heq.1, heq.2⟩

/-- A customer cancels an item of an order of the session, or is told why not. -/
theorem Solo.run_cancelItem (h : s.Rests) (hk : UniqueKeys s.data.items)
    (hr : s.catalog.resolve qrToken = .ok (table, restaurant))
    (ho : s.getOrOpen table.id restaurant.id none = (.ok ⟨session, false⟩, s₁))
    (hopens : s.Opens table.id restaurant.id none session s₁) :
    (∃ statusCode detail, (s.run (Customer.cancelItemCustomer qrToken itemId reason)).1 =
        .error (.http statusCode detail) ∧ detail ∈ ["Món không tồn tại hoặc không thuộc phiên của bạn.",
          "Không thể huỷ: món đã được phục vụ hoặc đã bị huỷ trước đó."]) ∨
      ∃ item, (s.run (Customer.cancelItemCustomer qrToken itemId reason)).1 = .ok item ∧
        ∃ o ∈ (s.run (Customer.cancelItemCustomer qrToken itemId reason)).2.data.orders,
          o.id = item.orderId ∧ o.tableSessionId = session.id := by
  rw [Solo.cancelItem_open h hr ho]
  cases hin : (Query.itemInSession itemId session.id restaurant.id).eval s₁.ctx s₁.catalog s₁.view with
  | false =>
    rw [Solo.run_query hin]
    exact .inl ⟨404, _, rfl, List.mem_cons_self⟩
  | true =>
    rw [Solo.run_query hin, if_pos rfl]
    let update := Command.cancelItem .customer reason itemId restaurant.id [.pending]
    have hv : update.violation s₁.ctx s₁.view = none := rfl
    cases hrow : (s₁.rows update).items.head? with
    | none =>
      have hrun := Solo.updateItem_conflict hv hrow
        "Không thể huỷ: món đã được phục vụ hoặc đã bị huỷ trước đó."
      have hcancel : s₁.run (translate conflictToHttp
          (ItemStateService.cancelItem itemId .customer restaurant.id [.pending] reason)) =
            (.error (.http 409 "Không thể huỷ: món đã được phục vụ hoặc đã bị huỷ trước đó."),
              s₁.write update) := by
        rw [Solo.run_translate, ItemStateService.cancelItem, hrun]
        rfl
      rw [Solo.bind_error hcancel]
      exact .inl ⟨409, _, rfl, by simp⟩
    | some row =>
      have hrun := Solo.updateItem_ok hv hrow
        "Không thể huỷ: món đã được phục vụ hoặc đã bị huỷ trước đó."
      have hcancel : s₁.run (translate conflictToHttp
          (ItemStateService.cancelItem itemId .customer restaurant.id [.pending] reason)) =
            (.ok row, ((s₁.write update).write (.touchSessionOfOrder row.orderId)).commit) := by
        rw [Solo.run_translate, ItemStateService.cancelItem, hrun]
        rfl
      rw [Solo.bind_ok hcancel]
      obtain ⟨o, hm, hid, hsession⟩ := Solo.cancelled_inSession hopens.rests (hopens.items ▸ hk) hin hrow
      refine .inr ⟨row, rfl, o, ?_, hid, hsession⟩
      have horders : (((s₁.write update).write (.touchSessionOfOrder row.orderId)).commit).data.orders =
          s₁.data.orders := by
        change overlay s₁.data.orders (overlay (overlay s₁.writes.orders []) []) = s₁.data.orders
        rw [hopens.rests, overlay_nil, overlay_nil]
        exact overlay_nil _
      exact horders ▸ hm

/-- The session that is found or opened is determined. -/
theorem Solo.Opens.same {tableId restaurantId : Uuid} {openedBy : Option Uuid} {session' : TableSession} {s₂ : Solo}
    (h : s.Opens tableId restaurantId openedBy session s₁) (h' : s.Opens tableId restaurantId openedBy session' s₂) :
    session' = session := by
  rcases h.found with ⟨-, hx⟩ | ⟨-, hx, rfl⟩
  · rcases h'.found with ⟨-, hx'⟩ | ⟨-, hx', -⟩
    · have hsingle : [session'] = [session] := hx'.symm.trans hx
      simpa using hsingle
    · rw [hx] at hx'
      cases hx'
  · rcases h'.found with ⟨-, hx'⟩ | ⟨-, -, rfl⟩
    · rw [hx] at hx'
      cases hx'
    · rfl

theorem Solo.served_createOrder (h : s.Rests) (hd : s.data.Ok owner)
    (hr : s.catalog.resolve qrToken = .ok (table, restaurant))
    (hopens : s.Opens table.id restaurant.id none session s₁) :
    Solo.Served session.id (s.run (Request.createOrder qrToken body).handler) := by
  have hhandler : (Request.createOrder qrToken body).handler =
      Customer.createOrder qrToken body >>= fun a => pure (.order a) := rfl
  rw [hhandler]
  rcases Solo.createOrder_cases h hd.sessionIds qrToken body with ⟨e, s', hrun, -⟩ |
    ⟨table', restaurant', session', s₁', menuItems, hr', hopens', -, hrun⟩
  · rw [Solo.bind_error hrun]
    obtain ⟨_, _, -, hends⟩ := Solo.createOrder_ends h hd hr body
    rw [hrun] at hends
    refine ⟨?_, fun a ha => by cases ha⟩
    cases hends with
    | refused line hl e he =>
      obtain ⟨detail, rfl⟩ := Catalog.accept_error he
      exact ⟨nofun, nofun, nofun⟩
    | overflow ha hq => exact ⟨nofun, nofun, nofun⟩
  · rw [hr] at hr'
    cases hr'
    obtain rfl := hopens.same hopens'
    rw [Solo.bind_ok hrun]
    refine ⟨⟨nofun, nofun, nofun⟩, fun a ha => ?_⟩
    cases ha
    refine ⟨s₁'.ctx.newOrder restaurant.id session'.id, ?_, rfl, rfl⟩
    have hlook : lookup s₁'.nextUuid (s₁'.ordered restaurant.id session' menuItems body.items).data.orders =
        some (s₁'.ctx.newOrder restaurant.id session'.id) := by
      simp [Solo.ordered, Solo.placed, Solo.publish, lookup_singleton, Ctx.newOrder, Solo.ctx]
    exact mem_of_lookup hlook

theorem Solo.served_cancelItem (h : s.Rests) (hk : UniqueKeys s.data.items)
    (hr : s.catalog.resolve qrToken = .ok (table, restaurant))
    (ho : s.getOrOpen table.id restaurant.id none = (.ok ⟨session, false⟩, s₁))
    (hopens : s.Opens table.id restaurant.id none session s₁) :
    Solo.Served session.id (s.run (Request.cancelItemCustomer qrToken itemId reason).handler) := by
  have hrun : (Request.cancelItemCustomer qrToken itemId reason).handler =
      Customer.cancelItemCustomer qrToken itemId reason >>= fun i => pure (.item i) := rfl
  rw [hrun, Solo.run_bind]
  rcases Solo.run_cancelItem h hk hr ho hopens with ⟨statusCode, detail, he, hdetail⟩ | ⟨item, hitem, ho⟩
  · rw [he]
    refine ⟨⟨?_, ?_, nofun⟩, fun a ha => by cases ha⟩
    · intro hinvalid
      cases hinvalid
      simp at hdetail
    · intro hinactive
      cases hinactive
      simp at hdetail
  · rw [hitem]
    refine ⟨⟨nofun, nofun, nofun⟩, fun a ha => ?_⟩
    cases ha
    exact ho

/-- A request whose token resolves is attached to the session that is found or opened. -/
theorem Solo.run_served (h : s.Rests) (hd : s.data.Ok owner) (hr : s.catalog.resolve qrToken = .ok (table, restaurant))
    {r : Request} (hq : r.qrToken = some qrToken) :
    ∃ session s₁, s.Opens table.id restaurant.id none session s₁ ∧ Solo.Served session.id (s.run r.handler) := by
  obtain ⟨session, s₁, ho, hopens⟩ := Solo.getOrOpen_opens h hd table.id restaurant.id none
  refine ⟨session, s₁, hopens, ?_⟩
  cases r with
  | getSessionSnapshot token =>
    cases hq
    obtain ⟨items, hrun⟩ := Solo.run_getSessionSnapshot h hr ho
    have hhandler : s.run (Request.getSessionSnapshot qrToken).handler = (.ok (.snapshot session items), s₁) :=
      Solo.bind_ok hrun
    rw [hhandler]
    refine ⟨⟨nofun, nofun, nofun⟩, fun a ha => ?_⟩
    cases ha
    rfl
  | wsCustomer token =>
    cases hq
    have hhandler : s.run (Request.wsCustomer qrToken).handler =
        (.ok (.subscribed (some (.session restaurant.id session.id))), s₁) :=
      Solo.bind_ok (Solo.run_wsCustomer h hr ho)
    rw [hhandler]
    refine ⟨⟨nofun, nofun, nofun⟩, fun a ha => ?_⟩
    cases ha
    rfl
  | callStaff token =>
    cases hq
    have hrun := Solo.run_callStaff h hr ho hopens.rests
    have hhandler : (Request.callStaff qrToken).handler =
        Customer.callStaff qrToken >>= fun a => pure (.call a) := rfl
    rw [hhandler, Solo.run_bind]
    rcases hrun with hnone | ⟨call, hcall, hmem, hsession⟩
    · rw [hnone]
      refine ⟨⟨nofun, nofun, nofun⟩, fun a ha => ?_⟩
      cases ha
      trivial
    · rw [hcall]
      refine ⟨⟨nofun, nofun, nofun⟩, fun a ha => ?_⟩
      cases ha
      exact ⟨hmem, hsession⟩
  | createOrder token body =>
    cases hq
    exact Solo.served_createOrder h hd hr hopens
  | cancelItemCustomer token itemId reason =>
    cases hq
    exact Solo.served_cancelItem h hd.itemIds hr ho hopens
  | _ => cases hq

/-- A request whose token does not resolve raises, or has its socket closed, and does nothing. -/
theorem Solo.run_unresolved {e : Exn} (hr : s.catalog.resolve qrToken = .error e) {r : Request}
    (hq : r.qrToken = some qrToken) :
    s.run r.handler = (.error e, s) ∨ s.run r.handler = (.ok (.subscribed none), s) := by
  have hrefused {α : Type} (f : Table × Restaurant → Action α) (g : α → Action Response) :
      s.run (Customer.resolveTable qrToken >>= f >>= g) = (.error e, s) := by
    rw [bind_assoc, Solo.resolve_error hr]
  cases r with
  | getSessionSnapshot token =>
    cases hq
    exact .inl (hrefused _ _)
  | createOrder token body =>
    cases hq
    exact .inl (hrefused _ _)
  | cancelItemCustomer token itemId reason =>
    cases hq
    exact .inl (hrefused _ _)
  | callStaff token =>
    cases hq
    exact .inl (hrefused _ _)
  | wsCustomer token =>
    cases hq
    have hrun : s.run (Gateway.wsCustomer qrToken) = (.ok none, s) := by
      unfold Gateway.wsCustomer
      rw [Solo.bind_ok (Solo.run_resolveQrToken s qrToken), hr]
      rfl
    exact .inr (Solo.bind_ok hrun)
  | _ => cases hq

/-- A request whose token does not resolve is refused. -/
theorem Solo.run_unserved {e : Exn} (hr : s.catalog.resolve qrToken = .error e) {r : Request}
    (hq : r.qrToken = some qrToken) : ¬ Accepted (s.run r.handler).1 := by
  rintro ⟨hinvalid, hinactive, hclosed⟩
  rcases Solo.run_unresolved hr hq with hrun | hrun
  · rw [hrun] at hinvalid hinactive
    rcases Catalog.resolve_error hr with rfl | rfl
    · exact hinvalid rfl
    · exact hinactive rfl
  · rw [hrun] at hclosed
    exact hclosed rfl

end Answers

end QOrder
