import QOrder.Isolation
import QOrder.Trace

/-! Why a client may execute a statement: what it holds, and what its own events so
far have shown it. -/

namespace QOrder

open KeyedTable Concurrency

variable {n : Nat}

@[simp] def Stmt.isCommit : Stmt → Bool
  | commit => true
  | _ => false

namespace Event

def isCommit (e : Event n) : Bool := e.stmt.isCommit

def succeeded (e : Event n) : Bool :=
  match e.resp with
  | .ok _ => true
  | .error _ => false

/-- The client's transaction goes on after the event. -/
def keeps (e : Event n) : Bool :=
  match e.stmt with
  | .commit | .rollback => false
  | _ => e.succeeded

/-- The row versions that the event's command has written. -/
def wrote : Event n → Data
  | { stmt := .command _, resp := .ok rows, .. } => rows
  | _ => {}

/-- The event's command has locked the session's row. -/
def locks (e : Event n) (sessionId : Uuid) : Bool := (lookup sessionId e.wrote.sessions).isSome

/-- The row of the session that the `SELECT` of the event loads. -/
def loads (e : Event n) (sessionId : Uuid) : Option TableSession :=
  match e.stmt with
  | .query (.openSessions tableId) =>
    (lookup sessionId e.before.sessions).filter fun s => s.tableId == tableId && s.status == .opened
  | .query (.sessionById k) => if k = sessionId then lookup k e.before.sessions else none
  | _ => none

end Event

/-- The events of one client. -/
def own (t : Fin n) (h : List (Event n)) : List (Event n) := h.filter fun e => e.client = t

def commitsOf (l : List (Event n)) : List (Event n) := l.filter Event.isCommit

@[simp] theorem isCommit_event (σ : Sys n) (t : Fin n) (q : Stmt) (r : Except DbError q.Resp)
    (d : Data) : (σ.event t q r d).isCommit = q.isCommit := rfl

@[simp] theorem own_nil (t : Fin n) : own t [] = [] := rfl

theorem own_append (t : Fin n) (h h' : List (Event n)) : own t (h ++ h') = own t h ++ own t h' :=
  List.filter_append ..

@[simp] theorem commitsOf_nil : commitsOf ([] : List (Event n)) = [] := rfl

@[simp] theorem commitsOf_append (l l' : List (Event n)) :
    commitsOf (l ++ l') = commitsOf l ++ commitsOf l' := List.filter_append ..

@[simp] theorem commitsOf_cons (e : Event n) (l : List (Event n)) :
    commitsOf (e :: l) = if e.isCommit then e :: commitsOf l else commitsOf l := by
  simp [commitsOf, List.filter_cons]

/-- The client has read the active table of its token. -/
def Resolved (qrToken : String) (tableId : Uuid) (l : List (Event n)) : Prop :=
  ∃ e ∈ l, e.stmt = .query (.tableByToken qrToken) ∧
    ∃ table, e.catalog.activeTable qrToken = some table ∧ table.id = tableId

/-- Looking up or committing a session of the table, the client has met an open one,
and it has committed nothing since. -/
def SeenOpen (tableId sessionId : Uuid) (l : List (Event n)) : Prop :=
  ∃ l₁ e l₂, l = l₁ ++ e :: l₂ ∧ commitsOf l₂ = [] ∧
    (e.stmt = .query (.openSessions tableId) ∨ e.stmt = .commit) ∧
    ∃ s, lookup sessionId e.after.sessions = some s ∧ s.tableId = tableId ∧ s.status = .opened

/-- The client has set `last_activity_at` of the committed row `s`. -/
def Touched (s : TableSession) (lastActivityAt : Timestamp) (l : List (Event n)) : Prop :=
  ∃ e ∈ l, e.stmt = .command (.setLastActivity s.id lastActivityAt) ∧ e.succeeded = true ∧
    lookup s.id e.before.sessions = some s

def ReadAppClock (at_ : Timestamp) (l : List (Event n)) : Prop :=
  ∃ e ∈ l, e.stmt = .appNow ∧ e.appClock = at_

/-- The client has loaded the open session with a `last_activity_at` that its clock showed again. -/
def Unchanged (sessionId : Uuid) (l : List (Event n)) : Prop :=
  ∃ e ∈ l, ∃ s, e.loads sessionId = some s ∧ s.status = .opened ∧ ReadAppClock s.lastActivityAt l

/-- The client's transaction holds the session's row. -/
def Locked (sessionId : Uuid) (l : List (Event n)) : Prop :=
  ∃ l₁ e l₂, l = l₁ ++ e :: l₂ ∧ e.locks sessionId = true ∧ ∀ f ∈ l₂, f.keeps = true

/-- The last statement of the client that satisfies `P` has met these items of the session, whose
row the client has held from before it on. -/
def ItemsMet (P : Stmt → Bool) (sessionId : Uuid) (items : List OrderItem) (l : List (Event n)) : Prop :=
  ∃ l₁ e l₂, l = l₁ ++ e :: l₂ ∧ Locked sessionId l₁ ∧ P e.stmt = true ∧ e.keeps = true ∧
    e.before.itemsOf sessionId = items ∧ ∀ f ∈ l₂, f.keeps = true ∧ P f.stmt = false

/-- The `SELECT` of the session's unserved items. -/
def Stmt.listsItems (sessionId : Uuid) : Stmt → Bool
  | .query (.unservedItems k) => k == sessionId
  | _ => false

/-- That `SELECT`, or the `UPDATE` that cancels them. -/
def Stmt.takesItems (sessionId : Uuid) : Stmt → Bool
  | .query (.unservedItems k) | .command (.cancelUnserved k _) => k == sessionId
  | _ => false

/-- The client has read an abandoned session within 24 hours of its abandonment. -/
def Restorable (sessionId : Uuid) (l : List (Event n)) : Prop :=
  commitsOf l = [] ∧ ∃ e ∈ l, ∃ s abandonedAt, lookup sessionId e.before.sessions = some s ∧
    s.status = .abandoned ∧ s.abandonedAt = some abandonedAt ∧
    ∃ now, ReadAppClock now l ∧ now - abandonedAt ≤ hours 24

/-- The client's `SELECT` of stale sessions has listed the session. -/
def Listed (sessionId : Uuid) (l : List (Event n)) : Prop :=
  ∃ e ∈ l, e.stmt = .query .staleSessions ∧ ∃ s, lookup sessionId e.before.sessions = some s ∧
    ∃ rs ∈ e.catalog.settings, rs.restaurantId = s.restaurantId ∧
      s.lastActivityAt < rs.staleBefore e.now

section Own

variable {l : List (Event n)} {e : Event n}

theorem SeenOpen.last {tableId : Uuid} {s : TableSession}
    (hq : e.stmt = .query (.openSessions tableId) ∨ e.stmt = .commit)
    (hs : lookup s.id e.after.sessions = some s) (ht : s.tableId = tableId)
    (ho : s.status = .opened) : SeenOpen tableId s.id (l ++ [e]) :=
  ⟨l, e, [], rfl, rfl, hq, s, hs, ht, ho⟩

theorem SeenOpen.append {tableId sessionId : Uuid} {l' : List (Event n)}
    (h : SeenOpen tableId sessionId l) (hl : commitsOf l' = []) :
    SeenOpen tableId sessionId (l ++ l') := by
  obtain ⟨l₁, e, l₂, rfl, hc, hs⟩ := h
  exact ⟨l₁, e, l₂ ++ l', by simp, by simp [hc, hl], hs⟩

theorem Resolved.append {qrToken : String} {tableId : Uuid} (h : Resolved qrToken tableId l)
    (l' : List (Event n)) : Resolved qrToken tableId (l ++ l') := by
  obtain ⟨e, he, h⟩ := h
  exact ⟨e, List.mem_append_left _ he, h⟩

theorem Listed.append {sessionId : Uuid} (h : Listed sessionId l) (l' : List (Event n)) :
    Listed sessionId (l ++ l') := by
  obtain ⟨e, he, h⟩ := h
  exact ⟨e, List.mem_append_left _ he, h⟩

theorem ReadAppClock.append {at_ : Timestamp} (h : ReadAppClock at_ l) (l' : List (Event n)) :
    ReadAppClock at_ (l ++ l') := by
  obtain ⟨e, he, h⟩ := h
  exact ⟨e, List.mem_append_left _ he, h⟩

theorem Locked.snoc {sessionId : Uuid} (h : Locked sessionId l) (he : e.keeps = true) :
    Locked sessionId (l ++ [e]) := by
  obtain ⟨l₁, f, l₂, rfl, hf, hl₂⟩ := h
  refine ⟨l₁, f, l₂ ++ [e], by simp, hf, fun g hg => ?_⟩
  rcases List.mem_append.mp hg with hg | hg
  · exact hl₂ g hg
  · exact List.mem_singleton.mp hg ▸ he

theorem Locked.last {sessionId : Uuid} (he : e.locks sessionId = true) : Locked sessionId (l ++ [e]) :=
  ⟨l, e, [], rfl, he, by simp⟩

theorem ItemsMet.snoc {P : Stmt → Bool} {sessionId : Uuid} {items : List OrderItem}
    (h : ItemsMet P sessionId items l) (he : e.keeps = true) (hP : P e.stmt = false) :
    ItemsMet P sessionId items (l ++ [e]) := by
  obtain ⟨l₁, f, l₂, rfl, hl, hf, hk, hi, hl₂⟩ := h
  refine ⟨l₁, f, l₂ ++ [e], by simp, hl, hf, hk, hi, fun g hg => ?_⟩
  rcases List.mem_append.mp hg with hg | hg
  · exact hl₂ g hg
  · exact List.mem_singleton.mp hg ▸ ⟨he, hP⟩

theorem ItemsMet.last {P : Stmt → Bool} {sessionId : Uuid} (hl : Locked sessionId l) (hP : P e.stmt = true)
    (he : e.keeps = true) : ItemsMet P sessionId (e.before.itemsOf sessionId) (l ++ [e]) :=
  ⟨l, e, [], rfl, hl, hP, he, rfl, by simp⟩

theorem Restorable.append {sessionId : Uuid} {l' : List (Event n)} (h : Restorable sessionId l)
    (hl : commitsOf l' = []) : Restorable sessionId (l ++ l') := by
  obtain ⟨hc, e, he, s, abandonedAt, hs, hst, ha, now, hn, hle⟩ := h
  exact ⟨by simp [hc, hl], e, List.mem_append_left _ he, s, abandonedAt, hs, hst, ha, now,
    hn.append l', hle⟩

end Own

/-- Why the request may commit the change of an item. -/
def MoveOf (l : List (Event n)) (i i' : OrderItem) (s : TableSession) : Request → Prop
  | .setItemStatus user itemId toStatus =>
    commitsOf l = [] ∧ i.id = itemId ∧ i.restaurantId = user.restaurantId ∧ i'.status = toStatus ∧
      toStatus ≠ .cancelled
  | .cancelItemStaff user itemId _ =>
    commitsOf l = [] ∧ i.id = itemId ∧ i.restaurantId = user.restaurantId ∧ i'.status = .cancelled
  | .cancelItemCustomer qrToken itemId _ =>
    i.id = itemId ∧ i.status = .pending ∧ i'.status = .cancelled ∧ SeenOpen s.tableId s.id l ∧
      Resolved qrToken s.tableId l
  | _ => False

/-- Why the request may take the session out of use. -/
def LeaveOf (l : List (Event n)) (s : TableSession) (kind : Leave) : Request → Prop
  | .checkoutSession user sessionId =>
    commitsOf l = [] ∧ kind = .close ∧ s.id = sessionId ∧ s.restaurantId = user.restaurantId ∧
      s.status = .opened
  | .restoreSession user sessionId =>
    Restorable s.id l ∧ kind = .close ∧ s.id = sessionId ∧ s.restaurantId = user.restaurantId ∧
      s.status = .abandoned
  | .runSweep => kind = .abandon ∧ Listed s.id l
  | .abandonSession sessionId => commitsOf l = [] ∧ kind = .abandon ∧ s.id = sessionId
  | _ => False

/-- Why the request may commit what its transaction holds. -/
def Justified (l : List (Event n)) : Holding → Request → Prop
  | .opening _, _ => commitsOf l = []
  | .ordered _ _ s lastActivityAt, .createOrder _ _ =>
    SeenOpen s.tableId s.id l ∧ Touched s lastActivityAt l ∧ ReadAppClock lastActivityAt l
  | .ordering o _, .createOrder _ _ =>
    (∃ tableId, SeenOpen tableId o.tableSessionId l) ∧ Unchanged o.tableSessionId l
  | .moved i i' s, r => MoveOf l i i' s r
  | .leaving s items kind _, r => LeaveOf l s kind r ∧ ItemsMet (Stmt.takesItems s.id) s.id items l
  | .reopening s, .restoreSession user sessionId =>
    Restorable s.id l ∧ s.id = sessionId ∧ s.restaurantId = user.restaurantId
  | .calling s _, .callStaff _ => SeenOpen s.tableId s.id l
  | .acking c _, .ackStaffCall _ callId => c.id = callId
  | _, _ => False

/-- The holdings under which the services execute a command. -/
def Holding.Runs (h : Holding) : Command → Prop
  | .cancelUnserved sessionId _ => ∃ s items kind, h = .leaving s items kind .marked ∧ s.id = sessionId
  | .setTotal sessionId totalAmount =>
    ∃ s items, h = .leaving s items .close .cancelled ∧ s.id = sessionId ∧ totalAmount = servedTotal items
  | .dismissPending sessionId restaurantId =>
    ∃ s items kind stage, h = .leaving s items kind stage ∧ stage ≠ .marked ∧
      stage ≠ .dismissed ∧ s.id = sessionId ∧ s.restaurantId = restaurantId
  | .touchSessionOfOrder orderId => ∃ i i', h = .moving i i' ∧ i.orderId = orderId
  | .insertItems _ => ∃ o, h = .ordering o []
  | .setLastActivity sessionId _ => ∃ o items, h = .ordering o items ∧ o.tableSessionId = sessionId
  | .insertCall _ _ sessionId => ∃ s, h = .touching s ∧ s.id = sessionId
  | _ => h = .nothing

/-- The kitchen's channel of the restaurant, or that of its session. -/
def Channel.Of (restaurantId sessionId : Uuid) : Channel → Prop
  | .kitchen r => r = restaurantId
  | .session r k => r = restaurantId ∧ k = sessionId

/-- The messages that the commit of a holding gives rise to. Rows that are read again for
a message may have changed since. -/
def Holding.Announces (channel : Channel) (event : RealtimeEvent) : Holding → Prop
  | opening _ => False
  | reopening s => channel.Of s.restaurantId s.id ∧ event = .sessionRestored s.id s.tableId
  | leaving s items .close _ => channel.Of s.restaurantId s.id ∧
    ∃ closedAt, event = .sessionClosed s.id s.tableId (servedTotal items) closedAt
  | leaving s _ .abandon _ => channel.Of s.restaurantId s.id ∧
    event = .sessionAbandoned s.id s.restaurantId
  | moved _ i' s => channel.Of i'.restaurantId s.id ∧
    (event = .itemUpdated i'.id i'.status i'.orderId ∨
      ∃ cancelledBy orderId, event = .itemCancelled i'.id i'.status cancelledBy orderId ∧
        i'.status = .cancelled ∧ ∀ k ∈ orderId, k = i'.orderId)
  | ordering o items | ordered o items _ _ => channel.Of o.restaurantId o.tableSessionId ∧
    ∃ published, event = .orderCreated o.id o.tableSessionId published ∧ published ≠ [] ∧
      published.map PublishedItem.id = items.map OrderItem.id
  | calling s c => channel.Of c.restaurantId s.id ∧
    ∃ tableId status createdAt, event = .staffCallNew c.id tableId s.id status createdAt
  | acking c _ => channel.Of c.restaurantId c.tableSessionId ∧
    ∃ tableId status at_ by_, event = .staffCallAck c.id tableId c.tableSessionId status at_ by_
  | _ => False

theorem Holding.Places.announces {h : Holding} {o : Order} {items : List OrderItem} (hp : h.Places o items)
    {channel : Channel} (hof : channel.Of o.restaurantId o.tableSessionId) {published : List PublishedItem}
    (hne : published ≠ []) (hids : published.map PublishedItem.id = items.map OrderItem.id) :
    h.Announces channel (.orderCreated o.id o.tableSessionId published) := by
  cases hp <;> exact ⟨hof, published, rfl, hne, hids⟩

/-- `e` commits what its client held, the holding `h`. -/
structure Event.Made (owner : Uuid → Uuid) (e : Event n) (h : Holding) : Prop where
  commit : e.isCommit = true
  ok : e.before.Ok owner
  valid : h.Valid owner e.now e.before
  complete : h.Complete
  after : e.after = e.before.overlay (h.writes e.now e.before)

/-- The client has committed what the message is about. -/
def Told (owner : Uuid → Uuid) (r : Request) (l : List (Event n)) (channel : Channel)
    (event : RealtimeEvent) : Prop :=
  ∃ l₁ e l₂ h, l = l₁ ++ e :: l₂ ∧ Justified l₁ h r ∧ e.Made owner h ∧ h.Announces channel event

theorem Told.append {owner : Uuid → Uuid} {r : Request} {l : List (Event n)} {channel : Channel}
    {event : RealtimeEvent} (h : Told owner r l channel event) (l' : List (Event n)) :
    Told owner r (l ++ l') channel event := by
  obtain ⟨l₁, e, l₂, h, rfl, hj, hm, ha⟩ := h
  exact ⟨l₁, e, l₂ ++ l', h, by simp, hj, hm, ha⟩

theorem Told.ext {owner : Uuid → Uuid} {r : Request} {l l' : List (Event n)} {channel : Channel}
    {event : RealtimeEvent} (h : Told owner r l channel event) (hl : l <+: l') :
    Told owner r l' channel event := by
  obtain ⟨m, rfl⟩ := hl
  exact h.append m

/-- The client may publish the message to the kitchen and to the session. -/
def Tells (owner : Uuid → Uuid) (r : Request) (l : List (Event n)) (restaurantId sessionId : Uuid)
    (event : RealtimeEvent) : Prop :=
  ∀ channel : Channel, channel.Of restaurantId sessionId → Told owner r l channel event

def Allowed (owner : Uuid → Uuid) (r : Request) (l : List (Event n)) (h : Holding) : Stmt → Prop
  | .commit => h.Complete ∧ Justified l h r
  | .publish channel event => Told owner r l channel event
  | .command (.abandonSession sessionId) =>
    h = .nothing ∧ (r = .runSweep → Listed sessionId l)
  | .command c => h.Runs c
  | _ => True

theorem Allowed.runs {owner : Uuid → Uuid} {r : Request} {l : List (Event n)} {h : Holding} {c : Command}
    (ha : Allowed owner r l h (.command c)) : h.Runs c := by
  cases c
  case abandonSession => exact ha.1
  all_goals exact ha

/-- What every event of a history records. -/
structure Entry (owner : Uuid → Uuid) (req : Fin n → Request) (hb : List (Event n))
    (e : Event n) : Prop where
  ok : e.before.Ok owner
  owned : e.catalog.Owned owner
  began : e.now ≤ e.clock
  past : ∀ e' ∈ hb, e'.clock ≤ e.clock
  commit : e.isCommit = true → ∃ h : Holding, h.Valid owner e.now e.before ∧ h.Complete ∧
    Justified (own e.client hb) h (req e.client) ∧
    e.after = e.before.overlay (h.writes e.now e.before)
  other : e.isCommit = false → e.after = e.before
  listed : ∀ sessionId, e.stmt = .command (.abandonSession sessionId) →
    req e.client = .runSweep → Listed sessionId (own e.client hb)
  told : ∀ channel event, e.stmt = .publish channel event →
    Told owner (req e.client) (own e.client hb) channel event

end QOrder
