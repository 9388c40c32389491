import QOrder.Rejections

/-! The requests that carry a table's token, on consistent data: where the token does not
resolve they are refused, and elsewhere they are attached to the one open session of its table. -/

namespace QOrder

open KeyedTable Concurrency

def invalidToken : Exn := .http 404 "Mã QR không hợp lệ hoặc bàn đã ngừng hoạt động."

def inactiveRestaurant : Exn := .http 404 "Nhà hàng hiện không hoạt động."

/-- The token that a request carries. -/
def Request.qrToken : Request → Option String
  | getSessionSnapshot q | createOrder q _ | cancelItemCustomer q _ _ | callStaff q | wsCustomer q => some q
  | _ => none

/-- The request has passed the resolution of its token. -/
def Accepted (answer : Except Exn Response) : Prop :=
  answer ≠ .error invalidToken ∧ answer ≠ .error inactiveRestaurant ∧ answer ≠ .ok (.subscribed none)

section Resolving

variable {c : Catalog} {qrToken : String} {table : Table} {restaurant : Restaurant} {e : Exn}

theorem Catalog.resolve_ok_iff : c.resolve qrToken = .ok (table, restaurant) ↔
    c.activeTable qrToken = some table ∧
      (c.restaurants.find? fun r => r.id == table.restaurantId && r.isActive) = some restaurant := by
  unfold Catalog.resolve
  constructor
  · intro h
    split at h
    next => cases h
    next t ht =>
      split at h
      next => cases h
      next r hr =>
        cases h
        exact ⟨ht, hr⟩
  · rintro ⟨ht, hr⟩
    rw [ht]
    dsimp only
    rw [hr]

theorem Catalog.resolve_error (h : c.resolve qrToken = .error e) : e = invalidToken ∨ e = inactiveRestaurant := by
  unfold Catalog.resolve at h
  split at h
  · cases h
    exact .inl rfl
  · split at h
    · cases h
      exact .inr rfl
    · cases h

end Resolving

section Opening

variable {owner : Uuid → Uuid} {s : Solo} {tableId restaurantId : Uuid} {openedBy : Option Uuid}

/-- A table has at most one open session. -/
theorem Data.Ok.openOn {d : Data} (hd : d.Ok owner) (tableId : Uuid) :
    d.openOn tableId = [] ∨ ∃ x, d.openOn tableId = [x] := by
  cases ho : d.openOn tableId with
  | nil => exact .inl rfl
  | cons x rest =>
    refine .inr ⟨x, ?_⟩
    rw [← ho]
    have hmem {y : TableSession} (hy : y ∈ d.openOn tableId) :
        y ∈ d.sessions ∧ y.tableId = tableId ∧ y.status = .opened := by
      obtain ⟨hm, hp⟩ := List.mem_filter.mp hy
      simp only [Bool.and_eq_true, beq_iff_eq] at hp
      exact ⟨hm, hp.1, hp.2⟩
    have hx := hmem (y := x) (by simp [ho])
    have hnodup : (d.openOn tableId).Nodup := (List.Nodup.of_map _ hd.sessionIds).filter _
    refine eq_singleton_of_forall hnodup (fun y hy => ?_) (by simp [ho])
    obtain ⟨hm, ht, hs⟩ := hmem hy
    exact hd.oneOpen x hx.1 y hm hx.2.2 hs (ht.trans hx.2.1.symm)

theorem Solo.getOrOpen_opens (h : s.Rests) (hd : s.data.Ok owner) (tableId restaurantId : Uuid)
    (openedBy : Option Uuid) : ∃ x s', s.getOrOpen tableId restaurantId openedBy = (.ok ⟨x, false⟩, s') ∧
      s.Opens tableId restaurantId openedBy x s' := by
  rcases Solo.getOrOpen_cases h tableId restaurantId openedBy with ⟨herr, hne⟩ | hopens
  · rcases hd.openOn tableId with hnone | ⟨x, hx⟩
    · exact absurd hnone hne
    · rw [Solo.getOrOpen, hx] at herr
      cases herr
  · exact hopens

end Opening

section Lines

variable {c : Catalog} {restaurantId : Uuid} {line : CreateOrderItemRequest}
  {lines : List CreateOrderItemRequest} {menuItems : List MenuItem} {e : Exn}

/-- The restaurant sells the dish now. -/
def Catalog.Sells (c : Catalog) (restaurantId menuItemId : Uuid) : Prop :=
  ∃ m ∈ c.menuItems, m.id = menuItemId ∧ m.restaurantId = restaurantId ∧ m.isActive = true ∧ m.isAvailable = true

theorem Catalog.dish_some_iff (hk : (c.menuItems.map MenuItem.id).Nodup) {menuItemId : Uuid} {m : MenuItem} :
    c.dish restaurantId menuItemId = some m ↔
      m ∈ c.menuItems ∧ m.id = menuItemId ∧ m.restaurantId = restaurantId ∧ m.isActive = true := by
  constructor
  · intro h
    have hp := List.find?_some h
    simp only [Bool.and_eq_true, beq_iff_eq] at hp
    exact ⟨List.mem_of_find?_eq_some h, hp.1.1, hp.1.2, hp.2⟩
  · rintro ⟨hm, hid, hr, ha⟩
    cases hd : c.dish restaurantId menuItemId with
    | none =>
      have hn := List.find?_eq_none.mp hd m hm
      simp [hid, hr, ha] at hn
    | some m' =>
      have hid' := Catalog.dish_id hd
      rw [List.inj_on_of_nodup_map hk (List.mem_of_find?_eq_some hd) hm (hid'.trans hid.symm)]

theorem Catalog.accept_iff (hk : (c.menuItems.map MenuItem.id).Nodup) :
    (∃ m, c.accept restaurantId line = .ok m) ↔ c.Sells restaurantId line.menuItemId := by
  constructor
  · rintro ⟨m, h⟩
    obtain ⟨hd, ha⟩ := Catalog.accept_ok h
    obtain ⟨hm, hid, hr, hactive⟩ := (Catalog.dish_some_iff hk).mp hd
    exact ⟨m, hm, hid, hr, hactive, ha⟩
  · rintro ⟨m, hm, hid, hr, hactive, ha⟩
    refine ⟨m, ?_⟩
    rw [Catalog.accept, (Catalog.dish_some_iff hk).mpr ⟨hm, hid, hr, hactive⟩]
    exact if_pos ha

theorem Catalog.accept_error (h : c.accept restaurantId line = .error e) : ∃ detail, e = .http 400 detail := by
  unfold Catalog.accept at h
  split at h
  · cases h
    exact ⟨_, rfl⟩
  · split at h
    · cases h
    · cases h
      exact ⟨_, rfl⟩

/-- A cart is accepted line by line, and refused with the refusal of a line. -/
theorem Catalog.mapM_accept (c : Catalog) (restaurantId : Uuid) (lines : List CreateOrderItemRequest) :
    (∃ menuItems, lines.mapM (c.accept restaurantId) = .ok menuItems ∧ menuItems.length = lines.length ∧
        ∀ line ∈ lines, ∃ m, c.accept restaurantId line = .ok m) ∨
      ∃ e, lines.mapM (c.accept restaurantId) = .error e ∧
        ∃ line ∈ lines, c.accept restaurantId line = .error e := by
  induction lines with
  | nil => exact .inl ⟨[], rfl, rfl, by simp⟩
  | cons line lines ih =>
    rw [List.mapM_cons]
    cases hline : c.accept restaurantId line with
    | error e => exact .inr ⟨e, rfl, line, List.mem_cons_self, hline⟩
    | ok m =>
      rcases ih with ⟨ms, hms, hlen, hall⟩ | ⟨e, he, l, hl, hle⟩
      · refine .inl ⟨m :: ms, ?_, by simp [hlen], ?_⟩
        · rw [hms]
          rfl
        · intro x hx
          rcases List.mem_cons.mp hx with rfl | hx
          · exact ⟨m, hline⟩
          · exact hall x hx
      · refine .inr ⟨e, ?_, l, List.mem_cons_of_mem _ hl, hle⟩
        rw [he]
        rfl

/-- A row of the cart has a quantity beyond `int4` if a line has. -/
theorem cartRows_any (restaurantId orderId : Uuid) (now : Timestamp) (h : menuItems.length = lines.length) :
    ((cartRows restaurantId orderId now menuItems lines).any fun n => int4Max < n.quantity) = true ↔
      ∃ line ∈ lines, int4Max < line.quantity := by
  induction lines generalizing menuItems with
  | nil =>
    cases menuItems with
    | nil => simp [cartRows]
    | cons m ms => simp at h
  | cons line lines ih =>
    cases menuItems with
    | nil => simp at h
    | cons m ms =>
      have hlen : ms.length = lines.length := by simpa using h
      have hrest := ih hlen
      rw [cartRows] at hrest ⊢
      rw [List.zipWith_cons_cons, List.any_cons, Bool.or_eq_true, hrest, decide_eq_true_iff,
        List.exists_mem_cons_iff]
      rfl

end Lines

section Orders

variable {owner : Uuid → Uuid} {s : Solo} {qrToken : String} {table : Table} {restaurant : Restaurant}
  {body : CreateOrderRequest}

theorem Request.createOrder_response (w : Moment) (c : Catalog) (d : Data) (qrToken : String)
    (body : CreateOrderRequest) : (Request.createOrder qrToken body).response w c d =
      ((w.solo c d).run (Customer.createOrder qrToken body)).1.map .order := by
  have hhandler : (Request.createOrder qrToken body).handler =
      Customer.createOrder qrToken body >>= fun a => pure (.order a) := rfl
  rw [Request.response_solo, hhandler, Solo.run_bind]
  cases ((w.solo c d).run (Customer.createOrder qrToken body)).1 <;> rfl

/-- How an order ends whose token resolves. -/
inductive Solo.OrderEnds (c : Catalog) (restaurantId sessionId : Uuid) (body : CreateOrderRequest) :
    Except Exn CreateOrderResponse → Prop
  | refused (line : CreateOrderItemRequest) (hl : line ∈ body.items) (e : Exn)
      (he : c.accept restaurantId line = .error e) : OrderEnds c restaurantId sessionId body (.error e)
  | overflow (ha : ∀ line ∈ body.items, ∃ m, c.accept restaurantId line = .ok m)
      (hq : ∃ line ∈ body.items, int4Max < line.quantity) :
      OrderEnds c restaurantId sessionId body (.error (.db .dataError))
  | placed (ha : ∀ line ∈ body.items, ∃ m, c.accept restaurantId line = .ok m)
      (hq : ∀ line ∈ body.items, line.quantity ≤ int4Max) (response : CreateOrderResponse)
      (hs : response.tableSessionId = sessionId) : OrderEnds c restaurantId sessionId body (.ok response)

theorem Solo.createOrder_ends (h : s.Rests) (hd : s.data.Ok owner)
    (hr : s.catalog.resolve qrToken = .ok (table, restaurant)) (body : CreateOrderRequest) :
    ∃ session s₁, s.Opens table.id restaurant.id none session s₁ ∧
      Solo.OrderEnds s.catalog restaurant.id session.id body (s.run (Customer.createOrder qrToken body)).1 := by
  obtain ⟨session, s₁, ho, hopens⟩ := Solo.getOrOpen_opens h hd table.id restaurant.id none
  refine ⟨session, s₁, hopens, ?_⟩
  have hnone : s₁.catalog.Loaded restaurant.id [] := by
    intro m hm
    cases hm
  rcases s.catalog.mapM_accept restaurant.id body.items with ⟨menuItems, ha, hlen, hall⟩ | ⟨e, ha, line, hl, he⟩
  · have ha₁ : body.items.mapM (s₁.catalog.accept restaurant.id) = .ok menuItems := by
      rw [hopens.catalog]
      exact ha
    obtain ⟨known, hvalidate, hloaded, -, hmem⟩ := Solo.validate_ok hnone ha₁
    have hcart := cartRows_any restaurant.id s₁.nextUuid s₁.appClock hlen
    cases hq : (cartRows restaurant.id s₁.nextUuid s₁.appClock menuItems body.items).any fun n =>
        int4Max < n.quantity with
    | true =>
      rw [Solo.createOrder_open h hr ho hopens.status, Solo.bind_ok hvalidate,
        Solo.bind_error (Solo.placeOrder_fails (newItems_zip hloaded ha₁ hmem) hq)]
      exact .overflow hall (hcart.mp hq)
    | false =>
      rw [Solo.run_createOrder h hd.sessionIds hr ho hopens ha hq]
      refine .placed hall (fun line hl => ?_) _ rfl
      by_contra hlt
      rw [hcart.mpr ⟨line, hl, Nat.lt_of_not_le hlt⟩] at hq
      cases hq
  · have ha₁ : body.items.mapM (s₁.catalog.accept restaurant.id) = .error e := by
      rw [hopens.catalog]
      exact ha
    rw [Solo.createOrder_open h hr ho hopens.status, Solo.bind_error (Solo.validate_error hnone ha₁)]
    exact .refused line hl e he

end Orders

end QOrder
