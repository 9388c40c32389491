import QOrder.Carts

/-! A customer's order or cancellation that ends in an error, and the session it may leave. -/

namespace QOrder

open KeyedTable Concurrency

section Cancelling

variable {s s₁ : Solo} {qrToken : String} {itemId : Uuid} {reason : Option String}
  {update : Command} {table : Table} {restaurant : Restaurant} {session : TableSession} {row : OrderItem}

theorem Solo.updateItem_conflict (hv : update.violation s.ctx s.view = none)
    (hrow : (s.rows update).items.head? = none) (conflict : String) :
    s.run (ItemStateService.updateItem update conflict) = (.error (.conflictError conflict), s.write update) := by
  unfold ItemStateService.updateItem
  rw [Solo.run_command hv, hrow]
  rfl

theorem Solo.updateItem_ok (hv : update.violation s.ctx s.view = none)
    (hrow : (s.rows update).items.head? = some row) (conflict : String) :
    s.run (ItemStateService.updateItem update conflict) =
      (.ok row, ((s.write update).write (.touchSessionOfOrder row.orderId)).commit) := by
  unfold ItemStateService.updateItem
  rw [Solo.run_command hv, hrow]
  dsimp only
  rw [Solo.run_command rfl, Solo.run_commit]
  rfl

/-- What a customer's cancellation does once the session is there. -/
theorem Solo.cancelItem_open (h : s.Rests) (hr : s.catalog.resolve qrToken = .ok (table, restaurant))
    (ho : s.getOrOpen table.id restaurant.id none = (.ok ⟨session, false⟩, s₁)) :
    s.run (Customer.cancelItemCustomer qrToken itemId reason) =
      s₁.run (do
        if ← Action.query (.itemInSession itemId session.id restaurant.id) then
          let updatedItem ← translate conflictToHttp <|
            ItemStateService.cancelItem itemId .customer restaurant.id [.pending] reason
          Customer.publishCancelled restaurant.id session.id updatedItem
          return updatedItem
        else
          throw (.http 404 "Món không tồn tại hoặc không thuộc phiên của bạn.")) := by
  unfold Customer.cancelItemCustomer
  rw [Solo.resolve_ok hr]
  dsimp only
  rw [Solo.bind_ok (by rw [Solo.run_getOrOpen h, ho])]
  rfl

theorem Solo.cancelItem_refused {e : Exn} (h : s.Rests)
    (he : (s.run (Customer.cancelItemCustomer qrToken itemId reason)).1 = .error e) :
    s.Leaves qrToken (s.run (Customer.cancelItemCustomer qrToken itemId reason)).2.data := by
  cases hr : s.catalog.resolve qrToken with
  | error e' =>
    have hrun : s.run (Customer.cancelItemCustomer qrToken itemId reason) = (.error e', s) := by
      unfold Customer.cancelItemCustomer
      rw [Solo.resolve_error hr]
    rw [hrun]
    exact Solo.leaves_unresolved hr
  | ok resolved =>
    obtain ⟨table, restaurant⟩ := resolved
    rcases Solo.getOrOpen_cases h table.id restaurant.id none with ⟨ho, hne⟩ | ⟨session, s₁, ho, hopens⟩
    · have hrun : s.run (Customer.cancelItemCustomer qrToken itemId reason) =
          (.error .multipleResultsFound, s) := by
        unfold Customer.cancelItemCustomer
        rw [Solo.resolve_ok hr]
        dsimp only
        rw [Solo.bind_error (by rw [Solo.run_getOrOpen h, ho])]
      rw [hrun]
      exact Solo.leaves_occupied hr hne
    · have hdata : (s.run (Customer.cancelItemCustomer qrToken itemId reason)).2.data = s₁.data := by
        rw [Solo.cancelItem_open h hr ho] at he ⊢
        cases hin : (Query.itemInSession itemId session.id restaurant.id).eval s₁.ctx s₁.catalog s₁.view with
        | false =>
          rw [Solo.run_query hin]
          rfl
        | true =>
          rw [Solo.run_query hin] at he ⊢
          rw [if_pos rfl] at he ⊢
          let update := Command.cancelItem .customer reason itemId restaurant.id [.pending]
          have hv : update.violation s₁.ctx s₁.view = none := rfl
          cases hrow : (s₁.rows update).items.head? with
          | none =>
            have hrun := Solo.updateItem_conflict hv hrow
              "Không thể huỷ: món đã được phục vụ hoặc đã bị huỷ trước đó."
            have hcancel : s₁.run (translate conflictToHttp
                (ItemStateService.cancelItem itemId .customer restaurant.id [.pending] reason)) =
                  (.error (.http 409 "Không thể huỷ: món đã được phục vụ hoặc đã bị huỷ trước đó."),
                    s₁.write update) := by
              rw [Solo.run_translate, ItemStateService.cancelItem, hrun]
              rfl
            rw [Solo.bind_error hcancel]
            rfl
          | some row =>
            have hrun := Solo.updateItem_ok hv hrow
              "Không thể huỷ: món đã được phục vụ hoặc đã bị huỷ trước đó."
            have hcancel : s₁.run (translate conflictToHttp
                (ItemStateService.cancelItem itemId .customer restaurant.id [.pending] reason)) =
                  (.ok row, ((s₁.write update).write (.touchSessionOfOrder row.orderId)).commit) := by
              rw [Solo.run_translate, ItemStateService.cancelItem, hrun]
              rfl
            rw [Solo.bind_ok hcancel] at he
            cases he
      rw [hdata]
      exact hopens.leaves hr

end Cancelling

section Refused

variable {owner : Uuid → Uuid} {D : Deployment owner} {r : Request} {qrToken : String} {e : Exn}

/-- The token a cart is sent with, or an item is cancelled with. -/
def Request.cartToken : Request → Option String
  | .createOrder qrToken _ | .cancelItemCustomer qrToken _ _ => some qrToken
  | _ => none

theorem Request.leaves (hq : r.cartToken = some qrToken)
    (h : r.response D.moment D.catalog D.data = .error e) :
    (D.moment.solo D.catalog D.data).Leaves qrToken (r.effect D.moment D.catalog D.data) := by
  have hrests : (D.moment.solo D.catalog D.data).Rests := rfl
  rw [Request.response_solo] at h
  rw [Request.effect_solo]
  cases r with
  | createOrder token body =>
    cases hq
    have hhandler : (Request.createOrder qrToken body).handler =
        Customer.createOrder qrToken body >>= fun a => pure (.order a) := rfl
    rcases Solo.createOrder_cases hrests D.ok.sessionIds qrToken body with
      ⟨e', s', hrun, hleaves⟩ | ⟨table, restaurant, session, s₁, menuItems, -, -, -, hrun⟩
    · rw [hhandler, Solo.bind_error hrun]
      exact hleaves
    · rw [hhandler, Solo.bind_ok hrun] at h
      cases h
  | cancelItemCustomer token itemId reason =>
    cases hq
    have hhandler : (Request.cancelItemCustomer qrToken itemId reason).handler =
        Customer.cancelItemCustomer qrToken itemId reason >>= fun i => pure (.item i) := rfl
    rw [hhandler, Solo.run_bind] at h ⊢
    cases hrun : ((D.moment.solo D.catalog D.data).run
        (Customer.cancelItemCustomer qrToken itemId reason)).1 with
    | error e' => exact Solo.cancelItem_refused hrests hrun
    | ok i =>
      rw [hrun] at h
      cases h
  | _ => cases hq

/-- An order or a cancellation that ends in an error changes nothing, except that the table
of its token has an open session afterwards. -/
theorem refused_request (hq : r.cartToken = some qrToken)
    (h : r.response D.moment D.catalog D.data = .error e) :
    ((∀ table restaurant, D.catalog.resolve qrToken = .ok (table, restaurant) →
        ∃ s ∈ D.data.sessions, s.tableId = table.id ∧ s.status = .opened) →
      r.effect D.moment D.catalog D.data = D.data) ∧
    ∀ table restaurant, D.catalog.resolve qrToken = .ok (table, restaurant) →
      (∀ s ∈ D.data.sessions, s.tableId = table.id → s.status ≠ .opened) →
      r.effect D.moment D.catalog D.data =
        { D.data with
          sessions := D.data.sessions ++ [(Ctx.mk D.clock D.nextUuid).newSession table.id restaurant.id none] } := by
  have hleaves := Request.leaves hq h
  refine ⟨fun hopen => hleaves.same fun table restaurant hr hfree => ?_, fun table restaurant hr hfree => ?_⟩
  · obtain ⟨s, hs, ht, ho⟩ := hopen table restaurant hr
    have hmem : s ∈ D.data.openOn table.id := List.mem_filter.mpr ⟨hs, by simp [ht, ho]⟩
    rw [show D.data.openOn table.id = [] from hfree] at hmem
    cases hmem
  · have hnone : D.data.openOn table.id = [] := by
      refine List.filter_eq_nil_iff.mpr fun s hs hp => ?_
      simp only [Bool.and_eq_true, beq_iff_eq] at hp
      exact hfree s hs hp.1 hp.2
    rw [hleaves.opened table restaurant hr hnone]
    have hnew : lookup D.nextUuid D.data.sessions = none := below_fresh D.below.sessions le_rfl
    have hsessions : overlay D.data.sessions [(Ctx.mk D.clock D.nextUuid).newSession table.id restaurant.id none] =
        D.data.sessions ++ [(Ctx.mk D.clock D.nextUuid).newSession table.id restaurant.id none] := by
      refine overlay_new fun s hs => ?_
      rw [List.mem_singleton.mp hs]
      exact hnew
    change D.data.overlay _ = _
    simp only [Data.overlay, overlay_nil]
    exact congrArg (Data.mk · _ _ _) hsessions

/-- An order of a dish that the restaurant does not have. -/
def cafeMissing : Request := .createOrder "ban-1" ⟨[{ menuItemId := 99, quantity := 1, quantity_pos := Nat.one_pos }], by simp⟩

theorem refused_request_cafe : (cafeMissing.effect cafe.moment cafe.catalog cafe.data).orders = [] ∧
    ((∀ table restaurant, cafe.catalog.resolve "ban-1" = .ok (table, restaurant) →
        ∃ s ∈ cafe.data.sessions, s.tableId = table.id ∧ s.status = .opened) →
      cafeMissing.effect cafe.moment cafe.catalog cafe.data = cafe.data) ∧
    ∀ table restaurant, cafe.catalog.resolve "ban-1" = .ok (table, restaurant) →
      (∀ s ∈ cafe.data.sessions, s.tableId = table.id → s.status ≠ .opened) →
      cafeMissing.effect cafe.moment cafe.catalog cafe.data =
        { cafe.data with
          sessions := cafe.data.sessions ++
            [(Ctx.mk cafe.clock cafe.nextUuid).newSession table.id restaurant.id none] } := by
  have h : cafeMissing.response cafe.moment cafe.catalog cafe.data =
      .error (.http 400 "Món không tồn tại hoặc đã ngừng phục vụ (id: 99).") := by
    decide +kernel
  exact ⟨by decide +kernel, refused_request rfl h⟩

theorem refused_request_fails : ¬ ∀ (D : Deployment fun _ => 1) (r : Request) (qrToken : String) (e : Exn),
    r.cartToken = some qrToken → r.response D.moment D.catalog D.data = .error e →
    r.effect D.moment D.catalog D.data = D.data := by
  intro h
  have hsame := h cafe cafeMissing "ban-1" (.http 400 "Món không tồn tại hoặc đã ngừng phục vụ (id: 99).") rfl
    (by decide +kernel)
  have hnone := congrArg (List.length ∘ Data.sessions) hsame
  exact absurd hnone (by decide +kernel)

end Refused

end QOrder
