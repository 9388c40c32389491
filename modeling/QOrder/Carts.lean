import QOrder.SoloCustomer

/-! An accepted order: the rows its commit adds, the answer and the published event. -/

namespace QOrder

open KeyedTable Concurrency

section Placing

variable {s : Solo} {restaurantId : Uuid} {session : TableSession} {menuItems : List MenuItem}
  {lines : List CreateOrderItemRequest} {rows : List NewItem}

/-- The row that `INSERT INTO orders` writes. -/
def Ctx.newOrder (ctx : Ctx) (restaurantId sessionId : Uuid) : Order :=
  ⟨ctx.nextUuid, restaurantId, sessionId, ctx.now⟩

/-- The rows that `INSERT INTO order_items` writes after the order's. -/
def Ctx.newItems (ctx : Ctx) (rows : List NewItem) : List OrderItem :=
  rows.mapIdx fun k n => n.row (ctx.nextUuid + 1 + k)

/-- An order has been committed. -/
def Solo.placed (s : Solo) (restaurantId : Uuid) (session : TableSession) (rows : List NewItem) : Solo :=
  { s with
    data := s.data.overlay
      { sessions := [session.touch s.appClock]
        orders := [s.ctx.newOrder restaurantId session.id]
        items := s.ctx.newItems rows }
    nextUuid := s.nextUuid + 1 + rows.length }

/-- The `UPDATE` of `last_activity_at`, or none where it has that value already. -/
theorem Solo.run_setLastActivity {β : Type} {f : Unit → Action β} (hk : UniqueKeys s.view.sessions)
    (hl : lookup session.id s.view.sessions = some session) (now : Timestamp) :
    s.run (Customer.setLastActivity session now >>= f) =
      (if now = session.lastActivityAt then s else s.write (.setLastActivity session.id now)).run (f ()) := by
  unfold Customer.setLastActivity
  by_cases hn : now = session.lastActivityAt
  · rw [if_pos hn, if_pos hn]
    rfl
  · have htouch : s.rows (.setLastActivity session.id now) = { sessions := [session.touch now] } := by
      rw [Solo.rows, Command.rows, changed_eq_singleton (k := session.id) (by simp) hk hl (by simp)]
    have hne : ((Command.setLastActivity session.id now).rows s.ctx s.view).sessions.isEmpty = false := by
      rw [show (Command.setLastActivity session.id now).rows s.ctx s.view =
        { sessions := [session.touch now] } from htouch]
      rfl
    have hv : Command.violation s.ctx s.view (.setLastActivity session.id now) = none := by
      simp [Command.violation, Command.indexEntries, hne]
    rw [if_neg hn, if_neg hn, bind_assoc, Solo.run_command hv]
    rfl

theorem Solo.Rests.placed (h : s.Rests) : (s.placed restaurantId session rows).Rests := h

theorem Solo.run_placeOrder (h : s.Rests) (hk : UniqueKeys s.data.sessions)
    (hl : lookup session.id s.data.sessions = some session)
    (hrows : Customer.newItems restaurantId s.nextUuid s.appClock menuItems lines = rows)
    (hq : (rows.any fun n => int4Max < n.quantity) = false) :
    s.run (Customer.placeOrder restaurantId session menuItems lines) =
      (.ok (s.ctx.newOrder restaurantId session.id, s.ctx.newItems rows),
        s.placed restaurantId session rows) := by
  let s₁ := s.write (.insertOrder restaurantId session.id)
  let s₂ := s₁.write (.insertItems rows)
  have hw₁ : s₁.writes = { orders := [s.ctx.newOrder restaurantId session.id] } := by
    change s.writes.overlay _ = _
    rw [h]
    simp [Data.overlay, Solo.rows, Command.rows, Ctx.newOrder]
  have hw₂ : s₂.writes =
      { orders := [s.ctx.newOrder restaurantId session.id], items := s.ctx.newItems rows } := by
    change s₁.writes.overlay _ = _
    rw [hw₁]
    simp only [Data.overlay, Solo.rows, Command.rows, overlay_nil, nil_overlay]
    rfl
  have hview : s₂.view.sessions = s.data.sessions := by
    rw [Solo.view, hw₂]
    exact overlay_nil _
  have hv₁ : Command.violation s.ctx s.view (.insertOrder restaurantId session.id) = none := rfl
  have hv₂ : Command.violation s₁.ctx s₁.view (.insertItems rows) = none := by
    simp [Command.violation, Command.indexEntries, hq]
  have hend : (if s.appClock = session.lastActivityAt then s₂ else
      s₂.write (.setLastActivity session.id s.appClock)).commit = s.placed restaurantId session rows := by
    split
    · rename_i hn
      have hsame : session.touch s.appClock = session := by
        rw [TableSession.touch, hn]
      have hsessions : overlay s.data.sessions [session.touch s.appClock] = s.data.sessions := by
        rw [hsame]
        exact overlay_self hk hl
      rw [Solo.commit, Solo.view, hw₂, Solo.placed, ← h]
      simp only [Data.overlay, overlay_nil, hsessions]
      rfl
    · have htouch : s₂.rows (.setLastActivity session.id s.appClock) =
          { sessions := [session.touch s.appClock] } := by
        rw [Solo.rows, Command.rows, hview, changed_eq_singleton (k := session.id) (by simp) hk hl (by simp)]
      have hw : (s₂.write (.setLastActivity session.id s.appClock)).writes =
          { sessions := [session.touch s.appClock]
            orders := [s.ctx.newOrder restaurantId session.id]
            items := s.ctx.newItems rows } := by
        change s₂.writes.overlay _ = _
        rw [hw₂, htouch]
        simp [Data.overlay]
      rw [Solo.commit, Solo.view, hw, Solo.placed, ← h]
      rfl
  unfold Customer.placeOrder
  rw [Solo.run_appNow, Solo.run_command hv₁]
  change s₁.run (Action.command (.insertItems
    (Customer.newItems restaurantId s.nextUuid s.appClock menuItems lines)) >>= _) = _
  rw [hrows, Solo.run_command hv₂]
  change s₂.run (Customer.setLastActivity session s.appClock >>= _) = _
  rw [Solo.run_setLastActivity (hview ▸ hk) (hview ▸ hl), Solo.run_commit, hend]
  rfl

/-- A line whose quantity does not fit its column. -/
theorem Solo.placeOrder_fails (hrows : Customer.newItems restaurantId s.nextUuid s.appClock menuItems lines = rows)
    (hq : (rows.any fun n => int4Max < n.quantity) = true) :
    s.run (Customer.placeOrder restaurantId session menuItems lines) =
      (.error (.db .dataError), (s.write (.insertOrder restaurantId session.id)).abort) := by
  let s₁ := s.write (.insertOrder restaurantId session.id)
  have hv₁ : Command.violation s.ctx s.view (.insertOrder restaurantId session.id) = none := rfl
  have hv₂ : Command.violation s₁.ctx s₁.view (.insertItems rows) = some .dataError := by
    simp [Command.violation, Command.indexEntries, hq]
  unfold Customer.placeOrder
  rw [Solo.run_appNow, Solo.run_command hv₁]
  change s₁.run (Action.command (.insertItems
    (Customer.newItems restaurantId s.nextUuid s.appClock menuItems lines)) >>= _) = _
  rw [hrows, Solo.run_command_fails hv₂]

theorem Solo.run_refreshItems {items : List OrderItem}
    (h : ∀ i ∈ items, lookup i.id s.view.items = some i) :
    s.run (Customer.refreshItems items) = (.ok items, s) := by
  induction items with
  | nil => rfl
  | cons i items ih =>
    have hq : (Query.itemById i.id).eval s.ctx s.catalog s.view = some i := h i List.mem_cons_self
    have hrest := ih fun x hx => h x (List.mem_cons_of_mem _ hx)
    rw [Customer.refreshItems, Solo.run_query hq]
    change s.run (Customer.refreshItems items >>= _) = _
    rw [Solo.bind_ok hrest]
    rfl

end Placing

section Requests

variable {s s₁ : Solo} {qrToken : String} {table : Table} {restaurant : Restaurant} {session : TableSession}
  {body : CreateOrderRequest} {menuItems : List MenuItem} {e : Exn}

/-- The lines of a cart, each with the dish it orders. -/
def cartRows (restaurantId orderId : Uuid) (now : Timestamp) (menuItems : List MenuItem)
    (lines : List CreateOrderItemRequest) : List NewItem :=
  List.zipWith (Customer.newItem restaurantId orderId now) menuItems lines

def orderEvent (order : Order) (items : List OrderItem) : RealtimeEvent :=
  .orderCreated order.id order.tableSessionId (items.map Customer.publishedItem)

theorem Solo.run_publishOrder (s : Solo) (restaurantId : Uuid) (order : Order) (items : List OrderItem)
    (sessionId : Uuid) : s.run (Customer.publishOrder restaurantId order items sessionId) =
      (.ok (), (s.publish (.kitchen restaurantId) (orderEvent order items)).publish
        (.session restaurantId sessionId) (orderEvent order items)) := rfl

theorem Solo.createOrder_open (h : s.Rests) (hr : s.catalog.resolve qrToken = .ok (table, restaurant))
    (ho : s.getOrOpen table.id restaurant.id none = (.ok ⟨session, false⟩, s₁))
    (hs : session.status = .opened) :
    s.run (Customer.createOrder qrToken body) =
      s₁.run (do
        let menuItems ← Customer.validateItems restaurant.id body.items []
        let (order, items) ← Customer.placeOrder restaurant.id session menuItems body.items
        let order ← Action.scalarOne (← Action.query (.orderById order.id))
        let items ← Customer.refreshItems items
        Customer.publishOrder restaurant.id order items session.id
        return ⟨order.id, order.tableSessionId, order.createdAt, items⟩) := by
  unfold Customer.createOrder
  rw [Solo.resolve_ok hr]
  dsimp only
  rw [Solo.bind_ok (by rw [Solo.run_getOrOpen h, ho])]
  rw [if_neg (by simp [hs])]
  rfl

/-- What an accepted order leaves. -/
def Solo.ordered (s : Solo) (restaurantId : Uuid) (session : TableSession) (menuItems : List MenuItem)
    (lines : List CreateOrderItemRequest) : Solo :=
  let order := s.ctx.newOrder restaurantId session.id
  let rows := cartRows restaurantId order.id s.appClock menuItems lines
  let event := orderEvent order (s.ctx.newItems rows)
  ((s.placed restaurantId session rows).publish (.kitchen restaurantId) event).publish
    (.session restaurantId session.id) event

theorem Solo.run_createOrder (h : s.Rests) (hk : UniqueKeys s.data.sessions)
    (hr : s.catalog.resolve qrToken = .ok (table, restaurant))
    (ho : s.getOrOpen table.id restaurant.id none = (.ok ⟨session, false⟩, s₁))
    (hopens : s.Opens table.id restaurant.id none session s₁)
    (ha : body.items.mapM (s.catalog.accept restaurant.id) = .ok menuItems)
    (hq : ((cartRows restaurant.id s₁.nextUuid s₁.appClock menuItems body.items).any fun n =>
      int4Max < n.quantity) = false) :
    s.run (Customer.createOrder qrToken body) =
      (.ok ⟨s₁.nextUuid, session.id, s₁.clock,
          s₁.ctx.newItems (cartRows restaurant.id s₁.nextUuid s₁.appClock menuItems body.items)⟩,
        s₁.ordered restaurant.id session menuItems body.items) := by
  have hnone : s₁.catalog.Loaded restaurant.id [] := by
    intro m hm
    cases hm
  rw [← hopens.catalog] at ha
  obtain ⟨known, hvalidate, hloaded, -, hmem⟩ := Solo.validate_ok hnone ha
  let rows := cartRows restaurant.id s₁.nextUuid s₁.appClock menuItems body.items
  let s₂ := s₁.placed restaurant.id session rows
  have hplace : s₁.run (Customer.placeOrder restaurant.id session known body.items) =
      (.ok (s₁.ctx.newOrder restaurant.id session.id, s₁.ctx.newItems rows), s₂) :=
    Solo.run_placeOrder hopens.rests (hopens.unique hk) (hopens.stored hk) (newItems_zip hloaded ha hmem) hq
  have hrests : s₂.Rests := hopens.rests.placed
  have horder : (Query.orderById (s₁.ctx.newOrder restaurant.id session.id).id).eval s₂.ctx s₂.catalog
      s₂.view = some (s₁.ctx.newOrder restaurant.id session.id) := by
    rw [Query.eval, hrests.view]
    simp [s₂, Solo.placed, lookup_singleton]
  have hitems : ∀ i ∈ s₁.ctx.newItems rows, lookup i.id s₂.view.items = some i := by
    intro i hi
    have hl : lookup i.id (s₁.ctx.newItems rows) = some i := lookup_of_mem Data.newItems_ids hi
    rw [hrests.view]
    simp [s₂, Solo.placed, hl]
  rw [Solo.createOrder_open h hr ho hopens.status, Solo.bind_ok hvalidate, Solo.bind_ok hplace]
  dsimp only
  rw [Solo.run_query horder]
  simp only [Action.scalarOne, Prog.pure_def, Prog.ret_bind]
  rw [Solo.bind_ok (Solo.run_refreshItems hitems), Solo.bind_ok (Solo.run_publishOrder ..)]
  rfl

/-- What a failed request leaves: the data it found, with a new session where the table of the
token had none. -/
structure Solo.Leaves (s : Solo) (qrToken : String) (d' : Data) : Prop where
  opened : ∀ table restaurant, s.catalog.resolve qrToken = .ok (table, restaurant) →
    s.data.openOn table.id = [] → d' = (s.opened table.id restaurant.id none).data
  same : (∀ table restaurant, s.catalog.resolve qrToken = .ok (table, restaurant) →
    s.data.openOn table.id ≠ []) → d' = s.data

theorem Solo.leaves_unresolved (hr : s.catalog.resolve qrToken = .error e) : s.Leaves qrToken s.data := by
  refine ⟨fun table restaurant ht => ?_, fun _ => rfl⟩
  rw [hr] at ht
  cases ht

theorem Solo.leaves_occupied (hr : s.catalog.resolve qrToken = .ok (table, restaurant))
    (ho : s.data.openOn table.id ≠ []) : s.Leaves qrToken s.data := by
  refine ⟨fun t r ht hfree => ?_, fun _ => rfl⟩
  rw [hr] at ht
  cases ht
  exact absurd hfree ho

theorem Solo.Opens.leaves (h : s.Opens table.id restaurant.id none session s₁)
    (hr : s.catalog.resolve qrToken = .ok (table, restaurant)) : s.Leaves qrToken s₁.data := by
  rcases h.found with ⟨rfl, hx⟩ | ⟨rfl, hfree, -⟩
  · exact Solo.leaves_occupied hr (by simp [hx])
  · refine ⟨fun t r ht _ => ?_, fun hall => absurd hfree (hall _ _ hr)⟩
    rw [hr] at ht
    cases ht
    rfl

theorem Solo.createOrder_cases (h : s.Rests) (hk : UniqueKeys s.data.sessions) (qrToken : String)
    (body : CreateOrderRequest) :
    (∃ e s', s.run (Customer.createOrder qrToken body) = (.error e, s') ∧ s.Leaves qrToken s'.data) ∨
      ∃ table restaurant session s₁ menuItems, s.catalog.resolve qrToken = .ok (table, restaurant) ∧
        s.Opens table.id restaurant.id none session s₁ ∧
        body.items.mapM (s.catalog.accept restaurant.id) = .ok menuItems ∧
        s.run (Customer.createOrder qrToken body) =
          (.ok ⟨s₁.nextUuid, session.id, s₁.clock,
              s₁.ctx.newItems (cartRows restaurant.id s₁.nextUuid s₁.appClock menuItems body.items)⟩,
            s₁.ordered restaurant.id session menuItems body.items) := by
  cases hr : s.catalog.resolve qrToken with
  | error e =>
    refine .inl ⟨e, s, ?_, Solo.leaves_unresolved hr⟩
    unfold Customer.createOrder
    rw [Solo.resolve_error hr]
  | ok resolved =>
    obtain ⟨table, restaurant⟩ := resolved
    rcases Solo.getOrOpen_cases h table.id restaurant.id none with ⟨ho, hne⟩ | ⟨session, s₁, ho, hopens⟩
    · refine .inl ⟨.multipleResultsFound, s, ?_, Solo.leaves_occupied hr hne⟩
      unfold Customer.createOrder
      rw [Solo.resolve_ok hr]
      dsimp only
      rw [Solo.bind_error (by rw [Solo.run_getOrOpen h, ho])]
    · have hnone : s₁.catalog.Loaded restaurant.id [] := by
        intro m hm
        cases hm
      cases ha : body.items.mapM (s₁.catalog.accept restaurant.id) with
      | error e =>
        refine .inl ⟨e, s₁, ?_, hopens.leaves hr⟩
        rw [Solo.createOrder_open h hr ho hopens.status, Solo.bind_error (Solo.validate_error hnone ha)]
      | ok menuItems =>
        obtain ⟨known, hvalidate, hloaded, -, hmem⟩ := Solo.validate_ok hnone ha
        cases hq : (cartRows restaurant.id s₁.nextUuid s₁.appClock menuItems body.items).any fun n =>
            int4Max < n.quantity with
        | true =>
          refine .inl ⟨.db .dataError, (s₁.write (.insertOrder restaurant.id session.id)).abort, ?_,
            hopens.leaves hr⟩
          rw [Solo.createOrder_open h hr ho hopens.status, Solo.bind_ok hvalidate,
            Solo.bind_error (Solo.placeOrder_fails (newItems_zip hloaded ha hmem) hq)]
        | false =>
          rw [hopens.catalog] at ha
          exact .inr ⟨table, restaurant, session, s₁, menuItems, rfl, hopens, ha,
            Solo.run_createOrder h hk hr ho hopens ha hq⟩

end Requests

section Accepted

variable {owner : Uuid → Uuid} {c : Catalog} {restaurantId orderId : Uuid} {now : Timestamp} {k : Nat}

/-- What an operation draws that begins on a database at rest. -/
def Deployment.moment (D : Deployment owner) : Moment := ⟨D.clock, D.appClock, D.nextUuid⟩

/-- The row of a line that orders a dish. -/
structure OrderItem.MadeFor (i : OrderItem) (line : CreateOrderItemRequest) (m : MenuItem) (orderId : Uuid)
    (now : Timestamp) : Prop where
  order : i.orderId = orderId
  restaurant : i.restaurantId = m.restaurantId
  menuItem : i.menuItemId = m.id
  name : i.nameSnapshot = m.name
  price : i.priceSnapshot = m.price
  prepTime : i.prepTimeSnapshot = m.prepTimeMinutes
  quantity : i.quantity = line.quantity
  note : i.note = line.note
  status : i.status = .pending
  requestedAt : i.requestedAt = now
  served : i.servedBy = none ∧ i.servedAt = none
  cancelled : i.cancelledBy = none ∧ i.cancelledAt = none ∧ i.cancelReason = none

/-- The line may be ordered, and the row is made for it. -/
def Catalog.Fills (c : Catalog) (restaurantId orderId : Uuid) (now : Timestamp) (line : CreateOrderItemRequest)
    (i : OrderItem) : Prop :=
  ∃ m ∈ c.menuItems, m.id = line.menuItemId ∧ m.restaurantId = restaurantId ∧ m.isActive = true ∧
    m.isAvailable = true ∧ i.MadeFor line m orderId now

theorem Catalog.fills_row {line : CreateOrderItemRequest} {m : MenuItem}
    (h : c.accept restaurantId line = .ok m) (id : Uuid) :
    c.Fills restaurantId orderId now line ((Customer.newItem restaurantId orderId now m line).row id) := by
  obtain ⟨hd, ha⟩ := Catalog.accept_ok h
  have hp := List.find?_some hd
  simp only [Bool.and_eq_true, beq_iff_eq] at hp
  obtain ⟨⟨hid, hrestaurant⟩, hactive⟩ := hp
  refine ⟨m, List.mem_of_find?_eq_some hd, hid, hrestaurant, hactive, ha, ?_⟩
  exact ⟨rfl, hrestaurant.symm, rfl, rfl, rfl, rfl, rfl, rfl, rfl, rfl, ⟨rfl, rfl⟩, rfl, rfl, rfl⟩

/-- One row for each line, in the order of the lines. -/
theorem Catalog.fills_rows {lines : List CreateOrderItemRequest} {menuItems : List MenuItem}
    (h : lines.mapM (c.accept restaurantId) = .ok menuItems) (id : Nat → Uuid) :
    List.Forall₂ (c.Fills restaurantId orderId now) lines
      ((cartRows restaurantId orderId now menuItems lines).mapIdx fun k n => n.row (id k)) := by
  induction lines generalizing menuItems id with
  | nil =>
    cases h
    exact .nil
  | cons line lines ih =>
    obtain ⟨m, ms, rfl, hline, hlines⟩ := mapM_accept_cons h
    rw [cartRows, List.zipWith_cons_cons, List.mapIdx_cons]
    exact .cons (c.fills_row hline _) (ih hlines fun k => id (k + 1))

/-- An accepted order: what its commit adds to the data. -/
structure AcceptedOrder (c : Catalog) (w : Moment) (d d' : Data) (lines : List CreateOrderItemRequest)
    (table : Table) (restaurant : Restaurant) (session : TableSession) (order : Order)
    (items : List OrderItem) : Prop where
  attached : session.status = .opened ∧ session.tableId = table.id
  sessions : session ∈ d.sessions ∧ d'.sessions = d.sessions.map (fun x =>
      if x.id = session.id then { x with lastActivityAt := w.appClock } else x) ∨
    d.openOn table.id = [] ∧ lookup session.id d.sessions = none ∧
      session = (Ctx.mk w.clock w.nextUuid).newSession table.id restaurant.id none ∧
      d'.sessions = d.sessions ++ [{ session with lastActivityAt := w.appClock }]
  orders : d'.orders = d.orders ++ [order]
  rows : d'.items = d.items ++ items
  calls : d'.calls = d.calls
  header : order.restaurantId = restaurant.id ∧ order.tableSessionId = session.id
  fresh : lookup order.id d.orders = none ∧ ∀ i ∈ items, lookup i.id d.items = none
  distinct : UniqueKeys items
  lines : List.Forall₂ (c.Fills restaurant.id order.id w.appClock) lines items

section Placed

variable {d : Data} {w : Moment} {s₁ : Solo} {table : Table} {restaurant : Restaurant}
  {session : TableSession} {menuItems : List MenuItem} {lines : List CreateOrderItemRequest}

theorem Solo.Opens.nextUuid_le {s : Solo} (h : s.Opens table.id restaurant.id none session s₁) :
    s.nextUuid ≤ s₁.nextUuid := by
  rcases h.found with ⟨rfl, -⟩ | ⟨rfl, -, -⟩
  · exact le_rfl
  · exact Nat.le_succ _

theorem Solo.Opens.unwritten {s : Solo} (h : s.Opens table.id restaurant.id none session s₁) :
    s₁.data.orders = s.data.orders ∧ s₁.data.items = s.data.items ∧ s₁.data.calls = s.data.calls := by
  rcases h.found with ⟨rfl, -⟩ | ⟨rfl, -, -⟩
  · exact ⟨rfl, rfl, rfl⟩
  · exact ⟨overlay_nil _, overlay_nil _, overlay_nil _⟩

theorem below_fresh {V : Type} [Keyed V Uuid] {rows : List V} {k id : Uuid} (h : ∀ r ∈ rows, key r < k)
    (hk : k ≤ id) : lookup id rows = none := by
  rw [lookup_eq_none]
  intro r hr he
  have hlt := h r hr
  rw [he] at hlt
  exact absurd hlt (Nat.not_lt.mpr hk)

/-- The session rows after the order, by whether the session had to be opened. -/
theorem Solo.Opens.touched (h : (w.solo c d).Opens table.id restaurant.id none session s₁)
    (hk : UniqueKeys d.sessions) (hb : d.Below w.nextUuid) :
    session ∈ d.sessions ∧ overlay s₁.data.sessions [session.touch w.appClock] = d.sessions.map (fun x =>
        if x.id = session.id then { x with lastActivityAt := w.appClock } else x) ∨
      d.openOn table.id = [] ∧ lookup session.id d.sessions = none ∧
        session = (Ctx.mk w.clock w.nextUuid).newSession table.id restaurant.id none ∧
        overlay s₁.data.sessions [session.touch w.appClock] =
          d.sessions ++ [{ session with lastActivityAt := w.appClock }] := by
  have hl : lookup session.id s₁.data.sessions = some session := h.stored hk
  have hover := overlay_row (w := session.touch w.appClock) hl rfl
  rcases h.found with ⟨rfl, hfound⟩ | ⟨rfl, hfree, rfl⟩
  · have hmem : session ∈ (w.solo c d).data.openOn table.id := by simp [hfound]
    refine .inl ⟨List.mem_of_mem_filter hmem, ?_⟩
    rw [hover]
    refine List.map_congr_left fun x hx => ?_
    by_cases hid : x.id = session.id
    · rw [eq_of_key_eq hk hx (List.mem_of_mem_filter hmem) hid]
      simp
      rfl
    · simp [hid]
  · have hnew : lookup (w.solo c d).nextUuid d.sessions = none := below_fresh hb.sessions le_rfl
    refine .inr ⟨hfree, hnew, rfl, ?_⟩
    rw [hover]
    have hdata : ((w.solo c d).opened table.id restaurant.id none).data.sessions =
        d.sessions ++ [(w.solo c d).ctx.newSession table.id restaurant.id none] := by
      refine overlay_new ?_
      intro x hx
      rw [List.mem_singleton.mp hx]
      exact hnew
    rw [hdata, List.map_append]
    have hold : d.sessions.map (fun x => if key x = key ((w.solo c d).ctx.newSession table.id restaurant.id none)
        then ((w.solo c d).ctx.newSession table.id restaurant.id none).touch w.appClock else x) = d.sessions := by
      refine (List.map_congr_left fun x hx => ?_).trans (List.map_id _)
      exact if_neg (lookup_eq_none.mp hnew x hx)
    rw [hold]
    simp
    rfl

theorem Solo.accepted (h : (w.solo c d).Opens table.id restaurant.id none session s₁)
    (hk : UniqueKeys d.sessions) (hb : d.Below w.nextUuid)
    (ha : lines.mapM (c.accept restaurant.id) = .ok menuItems) :
    AcceptedOrder c w d (s₁.ordered restaurant.id session menuItems lines).data lines table restaurant session
      (s₁.ctx.newOrder restaurant.id session.id)
      (s₁.ctx.newItems (cartRows restaurant.id s₁.nextUuid s₁.appClock menuItems lines)) := by
  obtain ⟨horders, hitems, hcalls⟩ := h.unwritten
  have hclock : s₁.appClock = w.appClock := h.clocks.2
  have hle : w.nextUuid ≤ s₁.nextUuid := h.nextUuid_le
  have hdata : (s₁.ordered restaurant.id session menuItems lines).data = s₁.data.overlay
      { sessions := [session.touch w.appClock]
        orders := [s₁.ctx.newOrder restaurant.id session.id]
        items := s₁.ctx.newItems (cartRows restaurant.id s₁.nextUuid s₁.appClock menuItems lines) } := by
    rw [← hclock]
    rfl
  have hnewOrder : lookup s₁.nextUuid d.orders = none := below_fresh hb.orders hle
  have hnewItems : ∀ i ∈ s₁.ctx.newItems (cartRows restaurant.id s₁.nextUuid s₁.appClock menuItems lines),
      lookup i.id d.items = none := by
    intro i hi
    obtain ⟨k, hlt, rfl⟩ := List.mem_mapIdx.mp hi
    refine below_fresh hb.items (hle.trans ?_)
    exact (Nat.le_add_right _ 1).trans (Nat.le_add_right _ k)
  refine ⟨⟨h.status, h.table⟩, ?_, ?_, ?_, ?_, ⟨rfl, rfl⟩, ⟨hnewOrder, hnewItems⟩, Data.newItems_ids, ?_⟩
  · rw [hdata]
    exact h.touched hk hb
  · rw [hdata, Data.overlay_orders, horders]
    refine overlay_new ?_
    intro o ho
    rw [List.mem_singleton.mp ho]
    exact hnewOrder
  · rw [hdata, Data.overlay_items, hitems]
    exact overlay_new hnewItems
  · rw [hdata, Data.overlay_calls, hcalls]
    exact overlay_nil _
  · rw [hclock]
    exact c.fills_rows ha _

/-- What an order leaves that is served at the moment `w`. -/
theorem Deployment.order_served (D : Deployment owner) (hw : D.nextUuid ≤ w.nextUuid) {qrToken : String}
    {body : CreateOrderRequest} {answer : Response}
    (h : (Request.createOrder qrToken body).response w D.catalog D.data = .ok answer) :
    ∃ table restaurant session order items, D.catalog.resolve qrToken = .ok (table, restaurant) ∧
      AcceptedOrder D.catalog w D.data ((Request.createOrder qrToken body).effect w D.catalog D.data) body.items
        table restaurant session order items ∧
      answer = .order ⟨order.id, session.id, order.createdAt, items⟩ ∧
      ∀ channel, (Request.createOrder qrToken body).messages w D.catalog D.data channel =
        if channel = .kitchen restaurant.id ∨ channel = .session restaurant.id session.id then
          [.orderCreated order.id session.id (items.map Customer.publishedItem)] else [] := by
  have hhandler : (Request.createOrder qrToken body).handler =
      Customer.createOrder qrToken body >>= fun a => pure (.order a) := rfl
  have hrests : (w.solo D.catalog D.data).Rests := rfl
  rw [Request.response_solo, hhandler, Solo.run_bind] at h
  rcases Solo.createOrder_cases hrests D.ok.sessionIds qrToken body with
    ⟨e, s', hrun, -⟩ | ⟨table, restaurant, session, s₁, menuItems, hr, hopens, ha, hrun⟩
  · rw [hrun] at h
    cases h
  · rw [hrun] at h
    cases h
    have hbelow : D.data.Below w.nextUuid := D.below.mono hw
    refine ⟨table, restaurant, session, s₁.ctx.newOrder restaurant.id session.id, _, hr, ?_, rfl, fun channel => ?_⟩
    · rw [Request.effect_solo, hhandler, Solo.bind_ok hrun]
      exact Solo.accepted hopens D.ok.sessionIds hbelow ha
    · have hsent : (s₁.placed restaurant.id session
          (cartRows restaurant.id s₁.nextUuid s₁.appClock menuItems body.items)).sent = [] := hopens.sent
      rw [Request.messages_solo, hhandler, Solo.bind_ok hrun]
      exact Solo.messagesOn_both hsent (by simp) _ channel

end Placed

theorem order_placed {D : Deployment owner} {qrToken : String} {body : CreateOrderRequest}
    {response : CreateOrderResponse}
    (h : (Request.createOrder qrToken body).response D.moment D.catalog D.data = .ok (.order response)) :
    ∃ table restaurant session order items, D.catalog.resolve qrToken = .ok (table, restaurant) ∧
      AcceptedOrder D.catalog D.moment D.data
        ((Request.createOrder qrToken body).effect D.moment D.catalog D.data) body.items table restaurant
        session order items ∧
      response = ⟨order.id, session.id, order.createdAt, items⟩ ∧
      ∀ channel, (Request.createOrder qrToken body).messages D.moment D.catalog D.data channel =
        if channel = .kitchen restaurant.id ∨ channel = .session restaurant.id session.id then
          [.orderCreated order.id session.id (items.map fun i => ⟨i.id, i.nameSnapshot, i.quantity, i.status⟩)]
        else [] := by
  have hhandler : (Request.createOrder qrToken body).handler =
      Customer.createOrder qrToken body >>= fun a => pure (.order a) := rfl
  have hrests : (D.moment.solo D.catalog D.data).Rests := rfl
  rw [Request.response_solo, hhandler, Solo.run_bind] at h
  rcases Solo.createOrder_cases hrests D.ok.sessionIds qrToken body with
    ⟨e, s', hrun, -⟩ | ⟨table, restaurant, session, s₁, menuItems, hr, hopens, ha, hrun⟩
  · rw [hrun] at h
    cases h
  · rw [hrun] at h
    cases h
    refine ⟨table, restaurant, session, s₁.ctx.newOrder restaurant.id session.id, _, hr, ?_, rfl, ?_⟩
    · rw [Request.effect_solo, hhandler, Solo.bind_ok hrun]
      exact Solo.accepted hopens D.ok.sessionIds D.below ha
    · intro channel
      have hsent : (s₁.placed restaurant.id session
          (cartRows restaurant.id s₁.nextUuid s₁.appClock menuItems body.items)).sent = [] := hopens.sent
      rw [Request.messages_solo, hhandler, Solo.bind_ok hrun]
      exact Solo.messagesOn_both hsent (by simp) _ channel

/-- One dish on two lines. -/
def cafeCart : CreateOrderRequest where
  items := [{ menuItemId := 3, quantity := 1, quantity_pos := Nat.one_pos },
    { menuItemId := 3, quantity := 2, note := some "ít hành", quantity_pos := Nat.two_pos }]

theorem order_placed_cafe : ∃ response,
    (Request.createOrder "ban-1" cafeCart).response cafe.moment cafe.catalog cafe.data = .ok (.order response) ∧
      response.items.map OrderItem.quantity = [1, 2] ∧
      ∃ table restaurant session order items, cafe.catalog.resolve "ban-1" = .ok (table, restaurant) ∧
        AcceptedOrder cafe.catalog cafe.moment cafe.data
          ((Request.createOrder "ban-1" cafeCart).effect cafe.moment cafe.catalog cafe.data) cafeCart.items table
          restaurant session order items ∧
        response = ⟨order.id, session.id, order.createdAt, items⟩ ∧
        ∀ channel, (Request.createOrder "ban-1" cafeCart).messages cafe.moment cafe.catalog cafe.data channel =
          if channel = .kitchen restaurant.id ∨ channel = .session restaurant.id session.id then
            [.orderCreated order.id session.id
              (items.map fun i => ⟨i.id, i.nameSnapshot, i.quantity, i.status⟩)]
          else [] := by
  have h : (Request.createOrder "ban-1" cafeCart).response cafe.moment cafe.catalog cafe.data =
      .ok (.order ⟨11, 10, 0, (Ctx.mk 0 11).newItems (cartRows 1 11 0 (cafe.catalog.menuItems ++
        cafe.catalog.menuItems) cafeCart.items)⟩) := by
    decide +kernel
  exact ⟨_, h, by decide, order_placed h⟩

end Accepted

end QOrder
