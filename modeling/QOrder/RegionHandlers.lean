import QOrder.Locality
import QOrder.Routers

/-! The endpoints keep to the region of the table, the session, the item or the call that they
are called for. -/

namespace QOrder

open KeyedTable Concurrency Concurrency.Prog QOrder.Action

variable {ζ : Type} {m : Atlas ζ} {z : ζ} {α β : Type} {a : Action α} {k rid : Uuid}

section Statements

theorem KeepsTo.query {q : Query} {f : q.Resp → Action β} {post : β → Prop} (hq : q.Within m z)
    (hf : ∀ a, q.Answers m z a → KeepsTo m z (f a) post) : KeepsTo m z (query q >>= f) post := by
  have hcall : KeepsTo m z (Action.query q) (q.Answers m z) := .call hq fun _ h => h
  exact hcall.bind hf

theorem KeepsTo.command {c : Command} {f : Data → Action β} {post : β → Prop} (hc : c.Within m z)
    (hf : ∀ rows : Data, rows.Inside m z → KeepsTo m z (f rows) post) :
    KeepsTo m z (command c >>= f) post := by
  have hcall : KeepsTo m z (Action.command c) fun rows => rows.Inside m z := .call hc fun _ h => h
  exact hcall.bind hf

theorem keepsTo_commit : KeepsTo m z commit fun _ => True := .call trivial fun _ _ => trivial

theorem keepsTo_rollback : KeepsTo m z rollback fun _ => True := .call trivial fun _ _ => trivial

theorem keepsTo_appNow : KeepsTo m z appNow fun _ => True := .call trivial fun _ _ => trivial

theorem keepsTo_publish (channel : Channel) (event : RealtimeEvent) :
    KeepsTo m z (publish channel event) fun _ => True := .call trivial fun _ _ => trivial

theorem keepsTo_publishBoth (kitchen session : Channel) (event : RealtimeEvent) :
    KeepsTo m z (do publish kitchen event; publish session event) fun _ => True :=
  (keepsTo_publish ..).bind fun _ _ => keepsTo_publish ..

theorem keepsTo_scalarOne (o : Option α) : KeepsTo m z (scalarOne o) fun a => a ∈ o := by
  cases o with
  | none => trivial
  | some a => exact Option.mem_some_self a

theorem keepsTo_read (expired : Bool) (a : α) : KeepsTo m z (readAttribute expired a) (· = a) := by
  cases expired with
  | true => trivial
  | false => rfl

theorem KeepsTo.translate {g : Exn → Exn} {post : α → Prop} (h : KeepsTo m z a post) :
    KeepsTo m z (translate g a) post :=
  Guarded.tryCatch h fun _ => trivial

end Statements

section Sessions

theorem keepsTo_findOpenSession {tableId : Uuid} (ht : m.table tableId = z) :
    KeepsTo m z (findOpenSession tableId []) fun found => ∀ s ∈ found, s.Of m z := by
  refine KeepsTo.query ht fun rows hrows => ?_
  have hone : KeepsTo m z (scalarOneOrNone rows) fun row => ∀ s ∈ row, s.Of m z := by
    match rows with
    | [] => exact fun s hs => by cases hs
    | [s] =>
      intro s' hs'
      cases hs'
      exact hrows s List.mem_cons_self
    | _ :: _ :: _ => trivial
  refine hone.bind fun row hrow s hs => ?_
  obtain ⟨r, hr, rfl⟩ := Option.map_eq_some_iff.mp hs
  exact hrow r hr

theorem keepsTo_getOrOpen {tableId : Uuid} {openedBy : Option Uuid} (ht : m.table tableId = z)
    (hr : m.Near rid z) :
    KeepsTo m z (SessionService.getOrOpen tableId rid openedBy) fun opened =>
      m.session opened.session.id = z := by
  refine (keepsTo_findOpenSession ht).bind fun found hfound => ?_
  cases found with
  | some s => exact (hfound s rfl).1
  | none =>
    refine ⟨⟨ht, hr⟩, fun r hans => ?_⟩
    match r with
    | .ok rows =>
      refine (keepsTo_scalarOne _).bind fun s hs => keepsTo_commit.bind fun _ _ => ?_
      have hin : rows.Inside m z := hans
      have hk := hin.session s (List.mem_of_mem_head? hs)
      refine KeepsTo.query hk fun row hrow => (keepsTo_scalarOne _).bind fun s' hs' => ?_
      exact (hrow s' hs').2.1
    | .error .uniqueViolation =>
      refine keepsTo_rollback.bind fun _ _ => (keepsTo_findOpenSession ht).bind fun found hfound => ?_
      cases found with
      | some s => exact (hfound s rfl).1
      | none => trivial
    | .error .dataError | .error .staleData | .error .operational => trivial

theorem keepsTo_dismissPending (hk : m.session k = z) :
    KeepsTo m z (StaffCallService.dismissPending k rid) fun _ => True :=
  KeepsTo.command hk fun _ _ => trivial

theorem keepsTo_readBack {loaded : List TableSession} (hk : m.session k = z) :
    KeepsTo m z (SessionService.readBack k loaded) fun _ => True :=
  KeepsTo.query hk fun _ _ => (keepsTo_scalarOne _).bind fun _ _ => trivial

theorem keepsTo_settle {loaded : List TableSession} (hk : m.session k = z) :
    KeepsTo m z (SessionService.settle k rid loaded) fun _ => True := by
  refine KeepsTo.query hk fun cancelled _ => ?_
  have hcancel : KeepsTo m z (SessionService.cancelIfAny k cancelled) fun _ => True := by
    unfold SessionService.cancelIfAny
    split
    · trivial
    · exact KeepsTo.command hk fun _ _ => trivial
  refine hcancel.bind fun _ _ => KeepsTo.query hk fun total _ => ?_
  refine KeepsTo.command hk fun _ _ => (keepsTo_dismissPending hk).bind fun _ _ => ?_
  exact keepsTo_commit.bind fun _ _ => (keepsTo_readBack hk).bind fun _ _ => trivial

theorem keepsTo_checkout {loaded : List TableSession} (hk : m.session k = z) :
    KeepsTo m z (SessionService.checkout k rid loaded) fun _ => True := by
  refine KeepsTo.command hk fun rows _ => ?_
  cases rows.sessions.head? with
  | none => trivial
  | some _ => exact (keepsTo_settle hk).bind fun _ _ => trivial

theorem keepsTo_restoreAbandoned {s : TableSession} (hs : s.Of m z) :
    KeepsTo m z (SessionService.restoreAbandoned s rid) fun _ => True := by
  have hfind : KeepsTo m z (findOpenSession s.tableId [s]) fun _ => True := by
    refine KeepsTo.query hs.2 fun rows _ => ?_
    match rows with
    | [] | [_] | _ :: _ :: _ => trivial
  refine hfind.bind fun found _ => ?_
  cases found with
  | none =>
    refine KeepsTo.command hs.1 fun rows _ => ?_
    cases rows.sessions.head? with
    | none => trivial
    | some _ => exact keepsTo_commit.bind fun _ _ => (keepsTo_readBack hs.1).bind fun _ _ => trivial
  | some _ =>
    refine KeepsTo.command hs.1 fun rows _ => ?_
    cases rows.sessions.head? with
    | none => trivial
    | some _ => exact (keepsTo_settle hs.1).bind fun _ _ => trivial

theorem keepsTo_restore (hk : m.Held (m.session k) rid z) :
    KeepsTo m z (SessionService.restore k rid) fun _ => True := by
  refine KeepsTo.query hk fun row hrow => ?_
  cases row with
  | none => trivial
  | some s =>
    have hs : s.Of m z := (hrow s rfl).2
    simp only
    split
    · trivial
    · cases s.abandonedAt with
      | none => trivial
      | some abandonedAt =>
        refine keepsTo_appNow.bind fun now _ => ?_
        split
        · trivial
        · exact (keepsTo_restoreAbandoned hs).bind fun _ _ => trivial

end Sessions

section Items

theorem keepsTo_updateItem {update : Command} {conflict : String} (hu : update.Within m z) :
    KeepsTo m z (ItemStateService.updateItem update conflict) fun i => m.order i.orderId = z := by
  refine KeepsTo.command hu fun rows hrows => ?_
  cases hh : rows.items.head? with
  | none => trivial
  | some row =>
    have hm : row ∈ rows.items := List.mem_of_mem_head? hh
    have ho : m.order row.orderId = z := (hrows.placed.item row hm).1.trans (hrows.item row hm)
    exact KeepsTo.command ho fun _ _ => keepsTo_commit.bind fun _ _ => ho

theorem keepsTo_setStatus {toStatus : OrderItemStatus} {actor : Option Uuid} (hk : m.Held (m.item k) rid z) :
    KeepsTo m z (ItemStateService.setStatus k toStatus actor rid) fun i => m.order i.orderId = z := by
  cases toStatus with
  | cancelled => trivial
  | pending | cooking | ready | served => exact keepsTo_updateItem hk

theorem keepsTo_publishUpdated {i : OrderItem} {event : RealtimeEvent} (hi : m.order i.orderId = z) :
    KeepsTo m z (Kitchen.publishUpdated rid i event) fun _ => True :=
  KeepsTo.query hi fun _ _ => (keepsTo_scalarOne _).bind fun _ _ => keepsTo_publishBoth ..

end Items

section Orders

theorem keepsTo_resolveTable {qrToken : String} (hq : m.token qrToken z) :
    KeepsTo m z (Customer.resolveTable qrToken) fun found =>
      m.table found.1.id = z ∧ m.Near found.2.id z := by
  refine KeepsTo.query hq fun table htable => ?_
  cases table with
  | none => trivial
  | some table =>
    obtain ⟨ht, hr⟩ := htable table rfl
    refine KeepsTo.query hr fun restaurant hrestaurant => ?_
    cases restaurant with
    | none => trivial
    | some restaurant =>
      refine ⟨ht, ?_⟩
      rw [show restaurant.id = table.restaurantId from hrestaurant restaurant rfl]
      exact hr

theorem keepsTo_validateItems (hr : m.Near rid z) (lines : List CreateOrderItemRequest)
    (menuItems : List MenuItem) (hm : ∀ x ∈ menuItems, m.dish x.id rid) :
    KeepsTo m z (Customer.validateItems rid lines menuItems) fun found => ∀ x ∈ found, m.dish x.id rid := by
  induction lines generalizing menuItems with
  | nil => exact hm
  | cons line lines ih =>
    refine KeepsTo.query hr fun row hrow => ?_
    cases row with
    | none => trivial
    | some row =>
      simp only
      split
      · refine ih _ fun x hx => ?_
        split at hx
        · exact hm x hx
        · rcases List.mem_append.mp hx with hx | hx
          · exact hm x hx
          · rw [List.mem_singleton.mp hx]
            exact hrow row rfl
      · trivial

theorem keepsTo_setLastActivity {s : TableSession} {now : Timestamp} (hs : m.session s.id = z) :
    KeepsTo m z (Customer.setLastActivity s now) fun _ => True := by
  unfold Customer.setLastActivity
  split
  · trivial
  · exact KeepsTo.command hs fun _ _ => trivial

theorem keepsTo_placeOrder {s : TableSession} {menuItems : List MenuItem}
    {lines : List CreateOrderItemRequest} (hs : m.session s.id = z) (hr : m.Near rid z)
    (hm : ∀ x ∈ menuItems, m.dish x.id rid) :
    KeepsTo m z (Customer.placeOrder rid s menuItems lines) fun placed =>
      m.order placed.1.id = z ∧ ∀ i ∈ placed.2, m.item i.id = z := by
  refine keepsTo_appNow.bind fun now _ => KeepsTo.command ⟨hs, hr⟩ fun rows hrows => ?_
  refine (keepsTo_scalarOne _).bind fun order horder => ?_
  have ho : m.order order.id = z := hrows.order order (List.mem_of_mem_head? horder)
  have hnew : (Command.insertItems (Customer.newItems rid order.id now menuItems lines)).Within m z := by
    intro n hn
    obtain ⟨line, -, hline⟩ := List.mem_filterMap.mp hn
    obtain ⟨menuItem, hfound, rfl⟩ := Option.map_eq_some_iff.mp hline
    exact ⟨ho, hr, hm menuItem (List.mem_of_find?_eq_some hfound)⟩
  refine KeepsTo.command hnew fun rows hrows => (keepsTo_setLastActivity hs).bind fun _ _ => ?_
  exact keepsTo_commit.bind fun _ _ => ⟨ho, hrows.item⟩

theorem keepsTo_refreshItems {items : List OrderItem} (hi : ∀ i ∈ items, m.item i.id = z) :
    KeepsTo m z (Customer.refreshItems items) fun _ => True := by
  induction items with
  | nil => trivial
  | cons item items ih =>
    refine KeepsTo.query (hi item List.mem_cons_self) fun row _ => ?_
    refine (keepsTo_scalarOne _).bind fun item _ => ?_
    exact (ih fun i h => hi i (List.mem_cons_of_mem _ h)).bind fun _ _ => trivial

end Orders

section Customers

variable {qrToken : String}

theorem keepsTo_getSessionSnapshot (hq : m.token qrToken z) :
    KeepsTo m z (Customer.getSessionSnapshot qrToken) fun _ => True := by
  refine (keepsTo_resolveTable hq).bind fun found hfound => ?_
  refine (keepsTo_getOrOpen hfound.1 hfound.2).bind fun opened hopened => ?_
  exact KeepsTo.query hopened fun _ _ => trivial

theorem keepsTo_createOrder {body : CreateOrderRequest} (hq : m.token qrToken z) :
    KeepsTo m z (Customer.createOrder qrToken body) fun _ => True := by
  refine (keepsTo_resolveTable hq).bind fun found hfound => ?_
  refine (keepsTo_getOrOpen hfound.1 hfound.2).bind fun opened hopened => ?_
  simp only
  split
  · trivial
  · refine (keepsTo_read ..).bind fun r hr => ?_
    have hnear : m.Near r z := hr ▸ hfound.2
    refine (keepsTo_validateItems hnear _ [] (by simp)).bind fun menuItems hm => ?_
    refine (keepsTo_placeOrder hopened hnear hm).bind fun placed hplaced => ?_
    refine KeepsTo.query hplaced.1 fun _ _ => (keepsTo_scalarOne _).bind fun _ _ => ?_
    refine (keepsTo_refreshItems hplaced.2).bind fun items _ => ?_
    exact (keepsTo_publishBoth ..).bind fun _ _ => trivial

theorem keepsTo_cancelItemCustomer {itemId : Uuid} {reason : Option String} (hq : m.token qrToken z) :
    KeepsTo m z (Customer.cancelItemCustomer qrToken itemId reason) fun _ => True := by
  refine (keepsTo_resolveTable hq).bind fun found hfound => ?_
  refine (keepsTo_getOrOpen hfound.1 hfound.2).bind fun opened hopened => ?_
  refine (keepsTo_read ..).bind fun r _ => KeepsTo.query hopened fun known hknown => ?_
  cases known with
  | false => trivial
  | true =>
    have hu : m.Held (m.item itemId) r z := .inl (hknown rfl)
    have hcancel : KeepsTo m z (ItemStateService.cancelItem itemId .customer r [.pending] reason)
        fun i => m.order i.orderId = z := keepsTo_updateItem hu
    exact hcancel.translate.bind fun i _ => (keepsTo_publishBoth ..).bind fun _ _ => trivial

theorem keepsTo_insertCall {tableId : Uuid} (ht : m.table tableId = z) (hk : m.session k = z)
    (hr : m.Near rid z) :
    KeepsTo m z (StaffCallService.insertCall tableId k rid) fun _ => True := by
  refine KeepsTo.command hk fun _ _ => KeepsTo.command ⟨ht, hk, hr⟩ fun rows hrows => ?_
  refine (keepsTo_scalarOne _).bind fun call hcall => keepsTo_commit.bind fun _ _ => ?_
  have hc : m.call call.id = z := hrows.call call (List.mem_of_mem_head? hcall)
  exact KeepsTo.query hc fun _ _ => (keepsTo_scalarOne _).mono fun _ _ => trivial

theorem keepsTo_callStaff (hq : m.token qrToken z) :
    KeepsTo m z (Customer.callStaff qrToken) fun _ => True := by
  refine (keepsTo_resolveTable hq).bind fun found hfound => ?_
  refine (keepsTo_getOrOpen hfound.1 hfound.2).bind fun opened hopened => ?_
  refine (keepsTo_read ..).bind fun tableId ht => ?_
  have htable : m.table tableId = z := ht ▸ hfound.1
  have hcooldown : KeepsTo m z (StaffCallService.getCooldown found.2.id) fun _ => True :=
    KeepsTo.query hfound.2 fun _ _ => trivial
  refine hcooldown.bind fun cooldown _ => KeepsTo.query htable fun recent _ => ?_
  cases recent with
  | true => trivial
  | false =>
    refine (keepsTo_insertCall htable hopened hfound.2).bind fun call _ => ?_
    exact (keepsTo_publishBoth ..).bind fun _ _ => trivial

theorem keepsTo_wsCustomer (hq : m.token qrToken z) :
    KeepsTo m z (Gateway.wsCustomer qrToken) fun _ => True := by
  have hresolve : KeepsTo m z (Gateway.resolveQrToken qrToken) fun found =>
      ∀ f ∈ found, m.table f.1.id = z ∧ m.Near f.2 z := by
    refine KeepsTo.query hq fun table htable => ?_
    cases table with
    | none => exact fun f hf => by cases hf
    | some table =>
      obtain ⟨ht, hr⟩ := htable table rfl
      refine KeepsTo.query hr fun restaurant hrestaurant => ?_
      cases restaurant with
      | none => exact fun f hf => by cases hf
      | some restaurant =>
        intro f hf
        cases hf
        refine ⟨ht, ?_⟩
        rw [show restaurant.id = table.restaurantId from hrestaurant restaurant rfl]
        exact hr
  refine hresolve.bind fun found hfound => ?_
  cases found with
  | none => trivial
  | some f =>
    obtain ⟨ht, hr⟩ := hfound f rfl
    exact (keepsTo_getOrOpen ht hr).bind fun _ _ => trivial

end Customers

section Staff

variable {user : TokenPayload}

theorem keepsTo_openTable {tableId : Uuid} (ht : m.Held (m.table tableId) user.restaurantId z)
    (hr : m.Near user.restaurantId z) :
    KeepsTo m z (StaffTables.openTable user tableId) fun _ => True := by
  refine KeepsTo.query ht fun table htable => ?_
  cases table with
  | none => trivial
  | some table =>
    simp only
    split
    · exact (keepsTo_getOrOpen (htable table rfl) hr).bind fun _ _ => trivial
    · trivial

theorem keepsTo_setItemStatus {toStatus : OrderItemStatus} (hk : m.Held (m.item k) user.restaurantId z) :
    KeepsTo m z (Kitchen.setItemStatus user k toStatus) fun _ => True := by
  refine KeepsTo.query hk fun known _ => ?_
  cases known with
  | false => trivial
  | true =>
    refine (keepsTo_setStatus hk).translate.bind fun i hi => ?_
    exact (keepsTo_publishUpdated hi).bind fun _ _ => trivial

theorem keepsTo_cancelItemStaff {reason : Option String} (hk : m.Held (m.item k) user.restaurantId z) :
    KeepsTo m z (Kitchen.cancelItemStaff user k reason) fun _ => True := by
  refine KeepsTo.query hk fun known _ => ?_
  cases known with
  | false => trivial
  | true =>
    have hcancel : KeepsTo m z
        (ItemStateService.cancelItem k .staff user.restaurantId [.pending, .cooking, .ready] reason)
        fun i => m.order i.orderId = z := keepsTo_updateItem hk
    refine hcancel.translate.bind fun i hi => ?_
    exact (keepsTo_publishUpdated hi).bind fun _ _ => trivial

theorem keepsTo_ackStaffCall (hk : m.Held (m.call k) user.restaurantId z) :
    KeepsTo m z (Kitchen.ackStaffCall user k) fun _ => True := by
  have hack : KeepsTo m z (StaffCallService.ack k user.sub user.restaurantId) fun _ => True := by
    refine KeepsTo.query hk fun row hrow => ?_
    cases row with
    | none => trivial
    | some call =>
      have hc : m.call k = z := hrow rfl
      simp only
      split
      · trivial
      · have hacknowledge : KeepsTo m z (StaffCallService.acknowledge k user.sub) fun _ => True := by
          refine keepsTo_appNow.bind fun now _ => KeepsTo.command hc fun _ _ => ?_
          refine keepsTo_commit.bind fun _ _ => KeepsTo.query hc fun _ _ => ?_
          exact (keepsTo_scalarOne _).mono fun _ _ => trivial
        exact hacknowledge.bind fun call _ => (keepsTo_publishBoth ..).bind fun _ _ => trivial
  exact KeepsTo.translate hack

theorem keepsTo_checkoutSession (hk : m.Held (m.session k) user.restaurantId z) :
    KeepsTo m z (StaffTables.checkoutSession user k) fun _ => True := by
  refine KeepsTo.query hk fun row hrow => ?_
  cases row with
  | none => trivial
  | some s =>
    obtain ⟨hid, hs⟩ := hrow s rfl
    refine (keepsTo_checkout (hid ▸ hs.1)).bind fun result _ => ?_
    cases result with
    | none => trivial
    | some result => exact (keepsTo_publishBoth ..).bind fun _ _ => trivial

theorem keepsTo_restoreSession (hk : m.Held (m.session k) user.restaurantId z) :
    KeepsTo m z (StaffTables.restoreSession user k) fun _ => True := by
  refine (keepsTo_restore hk).translate.bind fun result _ => ?_
  cases result with
  | none => trivial
  | some result =>
    have hpublish : KeepsTo m z (StaffTables.publishRestored user.restaurantId k result) fun _ => True := by
      unfold StaffTables.publishRestored
      cases result.action <;> exact keepsTo_publishBoth ..
    exact hpublish.bind fun _ _ => trivial

end Staff

/-- What a request names is of the region. -/
def Request.Within (m : Atlas ζ) (z : ζ) : Request → Prop
  | getSessionSnapshot q | createOrder q _ | cancelItemCustomer q _ _ | callStaff q | wsCustomer q =>
    m.token q z
  | openTable user tableId =>
    m.Held (m.table tableId) user.restaurantId z ∧ m.Near user.restaurantId z
  | setItemStatus user k _ | cancelItemStaff user k _ => m.Held (m.item k) user.restaurantId z
  | ackStaffCall user k => m.Held (m.call k) user.restaurantId z
  | checkoutSession user k | restoreSession user k => m.Held (m.session k) user.restaurantId z
  | runSweep | abandonSession _ => False

theorem Request.keepsTo {r : Request} (hr : r.Within m z) :
    KeepsTo m z r.handler fun _ => True := by
  cases r with
  | getSessionSnapshot q => exact (keepsTo_getSessionSnapshot hr).bind fun _ _ => trivial
  | createOrder q body => exact (keepsTo_createOrder hr).bind fun _ _ => trivial
  | cancelItemCustomer q k reason => exact (keepsTo_cancelItemCustomer hr).bind fun _ _ => trivial
  | callStaff q => exact (keepsTo_callStaff hr).bind fun _ _ => trivial
  | wsCustomer q => exact (keepsTo_wsCustomer hr).bind fun _ _ => trivial
  | openTable user tableId => exact (keepsTo_openTable hr.1 hr.2).bind fun _ _ => trivial
  | setItemStatus user k toStatus => exact (keepsTo_setItemStatus hr).bind fun _ _ => trivial
  | cancelItemStaff user k reason => exact (keepsTo_cancelItemStaff hr).bind fun _ _ => trivial
  | ackStaffCall user k => exact (keepsTo_ackStaffCall hr).bind fun _ _ => trivial
  | checkoutSession user k => exact (keepsTo_checkoutSession hr).bind fun _ _ => trivial
  | restoreSession user k => exact (keepsTo_restoreSession hr).bind fun _ _ => trivial
  | runSweep => exact hr.elim
  | abandonSession k => exact hr.elim

end QOrder
