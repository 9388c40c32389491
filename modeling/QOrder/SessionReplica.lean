import QOrder.MenuPage
import QOrder.Effects
import QOrder.Settlement
import Mathlib.Algebra.BigOperators.Group.List.Basic
import Mathlib.Algebra.Group.Int.Defs

/-! The customer's page as a replica of the items of its session. -/

namespace QOrder

open KeyedTable Concurrency Binary64

namespace MenuPage

/-- What the page shows of an item. -/
structure Line where
  id : Uuid
  orderId : Option Uuid
  quantity : Nat
  priceSnapshot : Option Money
  status : OrderItemStatus
  deriving DecidableEq

def SessionItem.line (i : SessionItem) : Line := ⟨i.id, i.orderId, i.quantity, i.priceSnapshot, i.status⟩

def lineOf (i : OrderItem) : Line := (ofRow i).line

/-- The page has every item of the session once, and shows it as it is. -/
def Matches (page : Page) (d : Data) (sessionId : Uuid) : Prop :=
  (page.map SessionItem.line).Perm ((d.itemsOf sessionId).map lineOf)

/-- The amount of everything that is ordered and not cancelled. -/
def orderedTotal (items : List OrderItem) : Money :=
  ((items.filter fun i => i.status ≠ .cancelled).map OrderItem.amount).sum

/-- The effect of a change of status. -/
def Line.set (id : Uuid) (status : OrderItemStatus) (x : Line) : Line :=
  if x.id = id then { x with status } else x

/-- The price, and how often it counts. -/
def Line.priced (x : Line) : Rat × Rat := ((x.priceSnapshot.getD 0 : Int) / 100, x.quantity)

def Line.counted (x : Line) : Bool := x.status ≠ .cancelled

/-- What is added up. -/
def pricedLines (lines : List Line) : List (Rat × Rat) := (lines.filter Line.counted).map Line.priced

section Lists

variable {page : Page} {d d' : Data} {sessionId : Uuid} {i i' : OrderItem} {s : TableSession}
  {now : Timestamp}

theorem orderedSubtotal_eq : orderedSubtotal page = addUp (pricedLines (page.map SessionItem.line)) := by
  rw [orderedSubtotal, addUp, pricedLines, List.filter_map, List.map_map, List.foldl_map]
  rfl

theorem orderedTotal_eq (items : List OrderItem) :
    (orderedTotal items : Rat) / 100 = exactSum (pricedLines (items.map lineOf)) := by
  have hamount (i : OrderItem) : (i.amount : Rat) / 100 = (lineOf i).priced.1 * (lineOf i).priced.2 := by
    have hpriced : (lineOf i).priced = ((i.priceSnapshot : Rat) / 100, (i.quantity : Rat)) := rfl
    rw [hpriced, OrderItem.amount, Int.cast_mul, Int.cast_natCast, div_mul_eq_mul_div]
  have hcounted : Line.counted ∘ lineOf = fun i => decide (i.status ≠ .cancelled) := rfl
  rw [orderedTotal, exactSum, pricedLines, List.filter_map, hcounted, List.map_map, List.map_map]
  generalize items.filter (fun i => decide (i.status ≠ .cancelled)) = counted
  induction counted with
  | nil => simp
  | cons i counted ih =>
    rw [List.map_cons, List.map_cons, List.sum_cons, List.sum_cons, Int.cast_add, add_div, ih, hamount]
    rfl

/-- A page that matches the session shows its subtotal, if nothing is rounded. -/
theorem Matches.subtotal (h : Matches page d sessionId) (hu : Unrounded (pricedLines (page.map SessionItem.line))) :
    orderedSubtotal page = (orderedTotal (d.itemsOf sessionId) : Rat) / 100 := by
  rw [orderedSubtotal_eq, orderedTotal_eq, addUp_eq hu]
  exact (((h.filter Line.counted).map Line.priced).map fun l => l.1 * l.2).sum_eq

/-- The page of a fresh `GET` of the session. -/
theorem matches_ofRow : Matches ((d.itemsOf sessionId).map ofRow) d sessionId := by
  unfold Matches
  rw [List.map_map]
  exact .refl _

theorem Matches.congr (h : Matches page d sessionId) (hd : d'.itemsOf sessionId = d.itemsOf sessionId) :
    Matches page d' sessionId := by
  rw [Matches, hd]
  exact h

theorem Matches.known (h : Matches page d sessionId) {x : SessionItem} (hx : x ∈ page) :
    ∃ i ∈ d.itemsOf sessionId, lineOf i = x.line :=
  List.mem_map.mp (h.mem_iff.mp (List.mem_map_of_mem hx))

theorem set_other {x : Line} {id : Uuid} (status : OrderItemStatus) (h : x.id ≠ id) : x.set id status = x :=
  if_neg h

theorem lines_set (id : Uuid) {status : OrderItemStatus} {f : SessionItem → SessionItem}
    (hf : ∀ x, x.id = id → (f x).line = x.line.set id status) :
    (page.map fun x => if x.id = id then f x else x).map SessionItem.line =
      (page.map SessionItem.line).map (Line.set id status) := by
  rw [List.map_map, List.map_map]
  refine List.map_congr_left fun x _ => ?_
  by_cases hx : x.id = id
  · rw [Function.comp, if_pos hx]
    exact hf x hx
  · rw [Function.comp, if_neg hx]
    exact (set_other status hx).symm

theorem set_twice (id : Uuid) (status : OrderItemStatus) (lines : List Line) :
    (lines.map (Line.set id status)).map (Line.set id status) = lines.map (Line.set id status) := by
  rw [List.map_map]
  refine List.map_congr_left fun x _ => ?_
  unfold Function.comp Line.set
  by_cases hx : x.id = id
  · simp [hx]
  · simp [hx]

theorem lineOf_moved (hm : i.Move now i') : lineOf i' = (lineOf i).set i.id i'.status := by
  have hset : (lineOf i).set i.id i'.status = { lineOf i with status := i'.status } := if_pos rfl
  rw [hset]
  cases hm <;> rfl

/-- The lines of the session once one of its items has moved. -/
theorem Matches.moved (h : Matches page d s.id) (hm : ItemMoved d d' i i' s) (hk : UniqueKeys d.items)
    {page' : Page} (hp : page'.map SessionItem.line = (page.map SessionItem.line).map (Line.set i.id i'.status)) :
    Matches page' d' s.id := by
  obtain ⟨now, hmove⟩ := hm.move
  have hlines : (d'.itemsOf s.id).map lineOf = ((d.itemsOf s.id).map lineOf).map (Line.set i.id i'.status) := by
    rw [hm.itemsOf hk, List.map_map, List.map_map]
    refine List.map_congr_left fun j hj => ?_
    by_cases hid : j.id = i.id
    · obtain rfl := eq_of_key_eq hk (Data.mem_itemsOf.mp hj).1 (mem_of_lookup hm.before) hid
      rw [Function.comp, if_pos rfl]
      exact lineOf_moved hmove
    · rw [Function.comp, if_neg hid]
      exact (set_other _ hid).symm
  rw [Matches, hp, hlines]
  exact h.map _

/-- A page that keeps its lines matches the session that has left exactly if the session
had no unserved item. -/
theorem Matches.left (h : Matches page d sessionId) {reason : String}
    (hd : d'.itemsOf sessionId = (d.itemsOf sessionId).map (OrderItem.cancelIfUnserved now reason)) :
    Matches page d' sessionId ↔ ∀ i ∈ d.itemsOf sessionId, i.isUnserved = false := by
  constructor
  · intro h' i hi
    have hmem : lineOf i ∈ (d'.itemsOf sessionId).map lineOf :=
      h'.mem_iff.mp (h.mem_iff.mpr (List.mem_map_of_mem hi))
    rw [hd, List.map_map] at hmem
    obtain ⟨j, -, hj⟩ := List.mem_map.mp hmem
    have hs : (j.cancelIfUnserved now reason).status = i.status := congrArg Line.status hj
    have hserved : (j.cancelIfUnserved now reason).isUnserved = false := j.cancelIfUnserved_served
    rw [OrderItem.isUnserved, hs] at hserved
    exact hserved
  · intro hall
    have hsame : (d.itemsOf sessionId).map (OrderItem.cancelIfUnserved now reason) = d.itemsOf sessionId := by
      refine (List.map_congr_left fun i hi => ?_).trans (List.map_id _)
      simp [OrderItem.cancelIfUnserved, hall i hi]
    exact h.congr (hd.trans hsame)

/-- A line without an order is not one of the session. -/
theorem Matches.order_known (h : Matches page d sessionId) {x : SessionItem} (hx : x ∈ page) :
    x.orderId.isSome := by
  obtain ⟨i, -, hs⟩ := h.known hx
  have ho : some i.orderId = x.orderId := congrArg Line.orderId hs
  rw [← ho]
  rfl

end Lists

end MenuPage

/-- The requests of another device about a table that is not restored. -/
def Request.fromDevice : Request → Bool
  | .createOrder _ _ | .setItemStatus _ _ _ | .cancelItemStaff _ _ _ | .cancelItemCustomer _ _ _
  | .checkoutSession _ _ | .callStaff _ | .ackStaffCall _ _ => true
  | _ => false

def Request.isCheckout : Request → Bool
  | .checkoutSession _ _ => true
  | _ => false

/-- The items of the page that are not cancelled, but for the one that the request cancels. -/
def Request.leftOn (r : Request) (page : MenuPage.Page) : MenuPage.Page :=
  page.filter fun i => i.status ≠ .cancelled ∧ (r.isCancel = true → r.itemOf ≠ some i.id)

section Operations

open MenuPage

variable {owner : Uuid → Uuid} {r : Request} {D : Deployment owner} {p : Clients 1}
  {h : Holding} {i i' : OrderItem} {s : TableSession} {event : RealtimeEvent}
  {restaurantId sessionId : Uuid} {page : MenuPage.Page} {events : List (Timestamp × RealtimeEvent)}

/-- A message about a changed item changes one line. -/
theorem lines_moved {now : Timestamp} (hid : i'.id = i.id)
    (ha : (Holding.moved i i' s).Announces (.session restaurantId sessionId) event) (page : MenuPage.Page) :
    (handleWsEvent now page event).map SessionItem.line =
      (page.map SessionItem.line).map (Line.set i.id i'.status) := by
  rw [← hid]
  obtain ⟨-, rfl | ⟨by_, orderId, rfl, hc, -⟩⟩ := ha
  · exact lines_set _ fun x hx => (if_pos hx).symm
  · rw [hc]
    exact lines_set _ fun x hx => (if_pos hx).symm

theorem leftOn_id (h : r.isCancel = false) : r.leftOn page = page.filter fun i => i.status ≠ .cancelled := by
  simp [Request.leftOn, h]

theorem counted_leftOn {lines : List Line} {id : Uuid} {status : OrderItemStatus}
    (hlines : ∀ x ∈ lines, x.id = id → x.counted = true) (hc : r.isCancel = true ↔ status = .cancelled)
    (hid : r.itemOf = some id) : pricedLines (lines.map (Line.set id status)) =
      (lines.filter fun x => x.status ≠ .cancelled ∧ (r.isCancel = true → r.itemOf ≠ some x.id)).map Line.priced := by
  have hpriced : Line.priced ∘ Line.set id status = Line.priced := by
    funext x
    rw [Function.comp, Line.set]
    split <;> rfl
  rw [pricedLines, List.filter_map, List.map_map, hpriced]
  refine congrArg (List.map Line.priced) (List.filter_congr fun x hx => ?_)
  by_cases hx' : x.id = id
  · have hcounted := hlines x hx hx'
    rw [Line.counted, decide_eq_true_eq] at hcounted
    simp [Line.set, Line.counted, hx', hid, hcounted, hc]
  · rw [Function.comp, set_other status hx']
    have hother : id ≠ x.id := fun h => hx' h.symm
    simp [Line.counted, hid, hother]

theorem page_moved {itemId : Uuid} (hr : D.Reaches (fun _ => r) p) (hk : r.itemOf = some itemId)
    (he : events.map Prod.snd = messagesOn (.session restaurantId sessionId) p.state.history)
    (hm : events ≠ []) (ha : Matches page D.data sessionId) :
    Matches (receive events page) p.state.data sessionId ∧
      pricedLines ((receive events page).map SessionItem.line) =
        ((r.leftOn page).map SessionItem.line).map Line.priced := by
  have hm' : messagesOn (.session restaurantId sessionId) p.state.history ≠ [] := by
    rw [← he]
    simpa using hm
  obtain ⟨i, i', s, l, hmoved, hof, hid, hevents⟩ := hr.sent_moved hk hm'
  obtain ⟨now, hmove⟩ := hmoved.move
  obtain ⟨event, hevent⟩ := List.exists_mem_of_ne_nil _ hm'
  have hs : sessionId = s.id := (hevents event hevent).1.2
  subst hs
  have hlines : (receive events page).map SessionItem.line =
      (page.map SessionItem.line).map (Line.set i.id i'.status) := by
    refine foldl_image (v := fun page : MenuPage.Page => page.map SessionItem.line) hm (fun e hmem page => ?_)
      (set_twice _ _) page
    refine lines_moved hmove.id_eq (hevents e.2 ?_) page
    rw [← he]
    exact List.mem_map_of_mem hmem
  refine ⟨ha.moved hmoved D.ok.itemIds hlines, ?_⟩
  have hcounted : ∀ x ∈ page.map SessionItem.line, x.id = i.id → x.counted = true := by
    intro x hx hxid
    obtain ⟨y, hy, rfl⟩ := List.mem_map.mp hx
    obtain ⟨j, hj, hline⟩ := ha.known hy
    have hjid : j.id = i.id := (congrArg Line.id hline).trans hxid
    obtain rfl := eq_of_key_eq D.ok.itemIds (Data.mem_itemsOf.mp hj).1 (mem_of_lookup hmoved.before) hjid
    rw [← hline, Line.counted, decide_eq_true_eq]
    exact hmove.becomes.not_cancelled
  rw [hlines, counted_leftOn hcounted hof.cancel (hid ▸ hk), Request.leftOn, List.filter_map]
  rfl

/-- The page ignores what is not about single items. -/
theorem handle_ignored {channel : Channel} {now : Timestamp} (ha : h.Announces channel event)
    (hk : h.changesItems = false ∨ ∃ s items kind stage, h = .leaving s items kind stage) (page : MenuPage.Page) :
    handleWsEvent now page event = page := by
  cases h with
  | moved | ordering | ordered => simp [Holding.changesItems] at hk
  | leaving s items kind stage =>
    cases kind with
    | close =>
      obtain ⟨-, closedAt, rfl⟩ := ha
      rfl
    | abandon =>
      obtain ⟨-, rfl⟩ := ha
      rfl
  | reopening s =>
    obtain ⟨-, rfl⟩ := ha
    rfl
  | calling s c =>
    obtain ⟨-, tableId, status, createdAt, rfl⟩ := ha
    rfl
  | acking c c' =>
    obtain ⟨-, tableId, status, at_, by_, rfl⟩ := ha
    rfl
  | _ => exact ha.elim

theorem page_ignores (hr : D.Reaches (fun _ => r) p)
    (hk : ∀ l h, Justified (n := 1) l h r → h.changesItems = false ∨
      ∃ s items kind stage, h = .leaving s items kind stage)
    (he : events.map Prod.snd = messagesOn (.session restaurantId sessionId) p.state.history)
    (page : MenuPage.Page) : receive events page = page := by
  have hall : ∀ e ∈ events, ∀ page, handleWsEvent e.1 page e.2 = page := by
    intro e hmem page
    have hmem' : e.2 ∈ messagesOn (.session restaurantId sessionId) p.state.history := by
      rw [← he]
      exact List.mem_map_of_mem hmem
    obtain ⟨l₁, x, l₂, h, -, hx, hann⟩ := hr.sent hmem'
    exact handle_ignored hann (hk _ _ hx.justified) page
  by_cases hm : events = []
  · rw [hm]
    rfl
  · exact foldl_same (g := id) hm hall (fun _ => rfl) page

theorem page_kept (hr : D.Reaches (fun _ => r) p)
    (hk : ∀ l h, Justified (n := 1) l h r → h.changesItems = false)
    (ha : Matches page D.data sessionId) : Matches page p.state.data sessionId := by
  obtain ⟨hi, ho⟩ := hr.items_kept hk
  refine ha.congr ?_
  have hin : p.state.data.inSession sessionId = D.data.inSession sessionId := by
    funext j
    rw [Data.inSession, ho, Data.inSession]
  rw [Data.itemsOf, hi, hin, Data.itemsOf]

/-- A checkout tells the page only that its session is closed. -/
theorem closing_ignored {user : TokenPayload} {k : Uuid} (hr : D.Reaches (fun _ => .checkoutSession user k) p)
    (he : events.map Prod.snd = messagesOn (.session restaurantId sessionId) p.state.history)
    (page : MenuPage.Page) : receive events page = page := by
  refine page_ignores hr (fun l h hj => ?_) he page
  cases h with
  | leaving s items kind stage => exact .inr ⟨s, items, kind, stage, rfl⟩
  | moved | ordering | ordered => exact hj.elim
  | _ => exact .inl rfl

theorem page_closed {user : TokenPayload} {k : Uuid} (hr : D.Reaches (fun _ => .checkoutSession user k) p)
    (he : events.map Prod.snd = messagesOn (.session restaurantId sessionId) p.state.history)
    (hm : events ≠ []) (ha : Matches page D.data sessionId) :
    Matches page p.state.data sessionId ↔ ∀ i ∈ D.data.itemsOf sessionId, i.isUnserved = false := by
  have hsingle : (Request.checkoutSession user k).Single := by
    intro l h hj
    cases h with
    | opening s => exact hj
    | leaving s items kind stage => exact hj.1.1
    | _ => exact hj.elim
  obtain ⟨e, hmem⟩ := List.exists_mem_of_ne_nil _ hm
  have hevent : e.2 ∈ messagesOn (.session restaurantId sessionId) p.state.history := by
    rw [← he]
    exact List.mem_map_of_mem hmem
  obtain ⟨l₁, x, l₂, h, hh, hc, hann⟩ := hr.sent hevent
  obtain ⟨hbefore, hafter⟩ := hr.single hsingle hh hc
  have hj := hc.justified
  cases h with
  | leaving s items kind stage =>
    have hid : sessionId = s.id := by
      cases kind with
      | close => exact hann.1.2
      | abandon => exact hann.1.2
    subst hid
    cases stage with
    | dismissed =>
      have hall := hc.items_left hr hh
      have hitems := leaving_itemsOf_all hc.ok hc.valid hall
      rw [← hc.after, ← hafter, ← hall, hbefore] at hitems
      exact ha.left hitems
    | _ => exact hc.complete.elim
  | opening s => exact hann.elim
  | _ => exact hj.elim

/-- New orders take no line off the page. -/
theorem receive_keeps {l : List (Timestamp × RealtimeEvent)} {page : MenuPage.Page} {x : MenuPage.SessionItem}
    (hl : ∀ e ∈ l, ∃ orderId k published, e.2 = .orderCreated orderId k published) (hx : x ∈ page) :
    x ∈ receive l page := by
  induction l generalizing page with
  | nil => exact hx
  | cons e l ih =>
    obtain ⟨orderId, k, published, hpub⟩ := hl e List.mem_cons_self
    have hkept : x ∈ handleWsEvent e.1 page e.2 := by
      rw [hpub]
      exact List.mem_append_left _ hx
    exact ih (fun y hy => hl y (List.mem_cons_of_mem _ hy)) hkept

/-- The lines of a new order are unknown to the page. -/
theorem published_unknown {h : Holding} {o : Order} {items : List OrderItem} {now : Timestamp}
    (hr : D.Reaches (fun _ => r) p) (ha : Matches page D.data sessionId) {l₁ l₂ : List (Event 1)} {x : Event 1}
    (hh : p.state.history = l₁ ++ x :: l₂) (hv : h.Valid owner now x.before) (hp : h.Places o items)
    {published : List PublishedItem} (hids : published.map PublishedItem.id = items.map OrderItem.id) :
    ∀ i ∈ published, i.id ∉ page.map MenuPage.SessionItem.id := by
  intro i hi hy
  obtain ⟨y, hy, hid⟩ := List.mem_map.mp hy
  obtain ⟨j, hj, hline⟩ := ha.known hy
  have hj_id : j.id = i.id := (congrArg Line.id hline).trans hid
  have hmem : i.id ∈ items.map OrderItem.id := hids ▸ List.mem_map_of_mem hi
  obtain ⟨i', hi', hid'⟩ := List.mem_map.mp hmem
  obtain ⟨j', hl, -⟩ := (hr.grown hh).item (lookup_of_mem D.ok.itemIds (Data.mem_itemsOf.mp hj).1)
  rw [key_item, hj_id, ← hid', (hp.newOrder hv).itemNew i' hi'] at hl
  cases hl

theorem order_announces {qrToken : String} {body : CreateOrderRequest}
    (hr : D.Reaches (fun _ => .createOrder qrToken body) p) (ha : Matches page D.data sessionId)
    {event : RealtimeEvent} (he : event ∈ messagesOn (.session restaurantId sessionId) p.state.history) :
    ∃ orderId k published, event = .orderCreated orderId k published ∧
      ∃ i ∈ published, i.id ∉ page.map MenuPage.SessionItem.id := by
  obtain ⟨l₁, x, l₂, h, hh, hc, hann⟩ := hr.sent he
  have hj := hc.justified
  cases h with
  | ordering o items =>
    obtain ⟨-, published, hpub, hne, hids⟩ := hann
    obtain ⟨i, hi⟩ := List.exists_mem_of_ne_nil _ hne
    exact ⟨_, _, published, hpub, i, hi, published_unknown hr ha hh hc.valid .ordering hids i hi⟩
  | ordered o items s at_ =>
    obtain ⟨-, published, hpub, hne, hids⟩ := hann
    obtain ⟨i, hi⟩ := List.exists_mem_of_ne_nil _ hne
    exact ⟨_, _, published, hpub, i, hi, published_unknown hr ha hh hc.valid (.ordered s at_) hids i hi⟩
  | opening s => exact hann.elim
  | leaving => exact hj.1.elim
  | _ => exact hj.elim

/-- A line of a new order reaches the page without its order. -/
theorem page_ordered {qrToken : String} {body : CreateOrderRequest}
    (hr : D.Reaches (fun _ => .createOrder qrToken body) p)
    (he : events.map Prod.snd = messagesOn (.session restaurantId sessionId) p.state.history)
    (hm : events ≠ []) (ha : Matches page D.data sessionId) :
    ¬ Matches (receive events page) p.state.data sessionId := by
  have hnew : ∀ e ∈ events, ∃ orderId k published, e.2 = .orderCreated orderId k published ∧
      ∃ i ∈ published, i.id ∉ page.map MenuPage.SessionItem.id := fun e hmem =>
    order_announces hr ha (he ▸ List.mem_map_of_mem hmem)
  intro hafter
  cases events with
  | nil => exact hm rfl
  | cons e l =>
    obtain ⟨orderId, k, published, hpub, i, hi, hunknown⟩ := hnew e List.mem_cons_self
    have hadded : ofPublished i ∈ handleWsEvent e.1 page e.2 := by
      rw [hpub]
      refine List.mem_append_right _ (List.mem_map_of_mem (List.mem_filter.mpr ⟨hi, ?_⟩))
      simpa using hunknown
    have horders : ∀ e ∈ l, ∃ orderId k published, e.2 = .orderCreated orderId k published := by
      intro y hy
      obtain ⟨orderId, k, published, hpub, -⟩ := hnew y (List.mem_cons_of_mem _ hy)
      exact ⟨orderId, k, published, hpub⟩
    have hshown := receive_keeps horders hadded
    have hknown := hafter.order_known hshown
    cases hknown

/-- A page that has lost no line but a cancelled one shows its subtotal. -/
theorem page_of_lines {page' : MenuPage.Page} (h : Matches page' p.state.data sessionId)
    (hl : pricedLines (page'.map SessionItem.line) = ((r.leftOn page).map SessionItem.line).map Line.priced) :
    Matches page' p.state.data sessionId ∧
      (Unrounded (((r.leftOn page).map SessionItem.line).map Line.priced) →
        orderedSubtotal page' = (orderedTotal (p.state.data.itemsOf sessionId) : Rat) / 100) := by
  refine ⟨h, fun hu => h.subtotal ?_⟩
  rw [hl]
  exact hu

theorem lines_leftOn (h : r.isCancel = false) (page : MenuPage.Page) :
    pricedLines (page.map SessionItem.line) = ((r.leftOn page).map SessionItem.line).map Line.priced := by
  rw [leftOn_id h, pricedLines, List.filter_map]
  rfl

theorem page_untouched (hr : D.Reaches (fun _ => r) p)
    (hk : ∀ l h, Justified (n := 1) l h r → h.changesItems = false) (hc : r.isCancel = false)
    (he : events.map Prod.snd = messagesOn (.session restaurantId sessionId) p.state.history)
    (ha : Matches page D.data sessionId) :
    Matches (receive events page) p.state.data sessionId ∧
      (Unrounded (((r.leftOn page).map SessionItem.line).map Line.priced) →
        orderedSubtotal (receive events page) = (orderedTotal (p.state.data.itemsOf sessionId) : Rat) / 100) := by
  rw [page_ignores hr (fun l h hj => .inl (hk l h hj)) he page]
  exact page_of_lines (page_kept hr hk ha) (lines_leftOn hc page)

/-- The page that matched its session before an operation of another device matches it after
the operation's messages, unless there is a new order or the checkout cancels an item. It then
shows the session's subtotal, unless a price, an amount or a running sum is rounded. -/
theorem page_replica (hr : D.Reaches (fun _ => r) p) (hd : r.fromDevice = true)
    (he : events.map Prod.snd = messagesOn (.session restaurantId sessionId) p.state.history)
    (hm : events ≠ []) (ha : Matches page D.data sessionId) :
    (Matches (receive events page) p.state.data sessionId ∧
      (Unrounded (((r.leftOn page).map SessionItem.line).map Line.priced) →
        orderedSubtotal (receive events page) = (orderedTotal (p.state.data.itemsOf sessionId) : Rat) / 100)) ↔
    r.isCreateOrder = false ∧
      (r.isCheckout = true → ∀ i ∈ D.data.itemsOf sessionId, i.isUnserved = false) := by
  cases hr' : r with
  | createOrder qrToken body =>
    subst hr'
    exact iff_of_false (fun h => page_ordered hr he hm ha h.1) fun h => by cases h.1
  | checkoutSession user k =>
    subst hr'
    have hiff := page_closed hr he hm ha
    rw [closing_ignored hr he page]
    exact ⟨fun h => ⟨rfl, fun _ => hiff.mp h.1⟩,
      fun h => page_of_lines (hiff.mpr (h.2 rfl)) (lines_leftOn rfl page)⟩
  | setItemStatus | cancelItemStaff | cancelItemCustomer =>
    subst hr'
    obtain ⟨hafter, hlines⟩ := page_moved hr rfl he hm ha
    exact iff_of_true (page_of_lines hafter hlines) ⟨rfl, fun h => by cases h⟩
  | callStaff | ackStaffCall =>
    subst hr'
    refine iff_of_true (page_untouched hr (fun l h hj => ?_) rfl he ha) ⟨rfl, fun h => by cases h⟩
    cases h <;> first | rfl | exact hj.elim | exact hj.1.elim
  | _ =>
    subst hr'
    cases hd

end Operations

section Cafe

open MenuPage

/-- The guest's page while the cook starts the dish. -/
theorem page_replica_cafe : ∃ (p : Clients 1) (events : List (Timestamp × RealtimeEvent)),
    cafeOrdered.Reaches (fun _ => .setItemStatus cafeStaff 12 .cooking) p ∧ events ≠ [] ∧
    Matches (receive events ((cafeOrdered.data.itemsOf 10).map ofRow)) p.state.data 10 ∧
    orderedSubtotal (receive events ((cafeOrdered.data.itemsOf 10).map ofRow)) =
      (orderedTotal (p.state.data.itemsOf 10) : Rat) / 100 := by
  obtain ⟨p, hr, hc⟩ := cafeOrdered.reaches_play (fun _ : Fin 1 => .setItemStatus cafeStaff 12 .cooking)
    (fun p => decide (messagesOn (.session 1 10) p.state.history ≠ [])) (steps 0 7) (by decide)
  let events := (messagesOn (.session 1 10) p.state.history).map fun event => ((0 : Timestamp), event)
  have hm : events ≠ [] := by simpa [events] using of_decide_eq_true hc
  have he : events.map Prod.snd = messagesOn (.session 1 10) p.state.history := by
    simp [events, Function.comp_def]
  obtain ⟨hafter, hsubtotal⟩ := (page_replica hr rfl he hm matches_ofRow).mpr ⟨rfl, fun hk => by cases hk⟩
  refine ⟨p, events, hr, hm, hafter, hsubtotal ?_⟩
  have hlines : ((Request.leftOn (.setItemStatus cafeStaff 12 .cooking) ((cafeOrdered.data.itemsOf 10).map ofRow)).map
      SessionItem.line).map Line.priced = [(50000, 1)].map fun p : Nat × Nat => ((p.1 : Rat), (p.2 : Rat)) := by
    decide +kernel
  rw [hlines]
  exact unrounded_of_whole (by decide) (by decide)

/-- Not every operation keeps the page and its session together: a checkout cancels the
pending dish, which the page goes on showing as ordered. -/
theorem page_replica_fails : ¬ ∀ (owner : Uuid → Uuid) (D : Deployment owner) (r : Request)
    (p : Clients 1) (restaurantId sessionId : Uuid) (page : MenuPage.Page) (events : List (Timestamp × RealtimeEvent)),
      D.Reaches (fun _ => r) p → r.fromDevice = true →
      events.map Prod.snd = messagesOn (.session restaurantId sessionId) p.state.history → events ≠ [] →
      Matches page D.data sessionId → Matches (receive events page) p.state.data sessionId ∧
        orderedSubtotal (receive events page) = (orderedTotal (p.state.data.itemsOf sessionId) : Rat) / 100 := by
  intro h
  obtain ⟨p, hr, hc⟩ := cafeOrdered.reaches_play (fun _ : Fin 1 => .checkoutSession cafeStaff 10)
    (fun p => decide (messagesOn (.session 1 10) p.state.history ≠ [])) (steps 0 11) (by decide)
  let events := (messagesOn (.session 1 10) p.state.history).map fun event => ((0 : Timestamp), event)
  have hm : events ≠ [] := by simpa [events] using of_decide_eq_true hc
  have he : events.map Prod.snd = messagesOn (.session 1 10) p.state.history := by
    simp [events, Function.comp_def]
  have hafter := (h _ cafeOrdered _ p 1 10 _ events hr rfl he hm matches_ofRow).1
  rw [closing_ignored hr he] at hafter
  have hserved := (page_closed hr he hm matches_ofRow).mp hafter
  revert hserved
  decide

end Cafe

end QOrder
