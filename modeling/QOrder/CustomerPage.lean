import QOrder.Statements

/-! The customer's page. `useWebSocket` drops the events that are not newer than the
last one, and `MenuPage` applies the others to the items it shows. -/

namespace QOrder

/-- The double that `JSON.parse` reads, the nearest one with ties to even. -/
def jsNumber (k : Nat) : Nat :=
  let ulp := 2 ^ (k.log2 - 52)
  let q := k / ulp
  let r := k % ulp
  if ulp < 2 * r ∨ ulp = 2 * r ∧ q % 2 = 1 then (q + 1) * ulp else q * ulp

/-- What `RealtimePublisher.publish` sends, `seq` being `time.time_ns()`. -/
structure Message where
  event : RealtimeEvent
  seq : Nat
  deriving DecidableEq, Repr

structure SessionItem where
  id : Uuid
  nameSnapshot : String
  quantity : Nat
  status : OrderItemStatus
  deriving DecidableEq, Repr

def OrderItem.sessionItem (i : OrderItem) : SessionItem :=
  ⟨i.id, i.nameSnapshot, i.quantity, i.status⟩

def PublishedItem.sessionItem (i : PublishedItem) : SessionItem :=
  ⟨i.id, i.nameSnapshot, i.quantity, i.status⟩

structure Page where
  sessionItems : List SessionItem
  sessionStatus : SessionStatus
  lastSeq : Nat
  deriving DecidableEq, Repr

namespace Page

variable (page : Page)

def setStatus (id : Uuid) (status : OrderItemStatus) : Page :=
  { page with
    sessionItems := page.sessionItems.map fun i => if i.id = id then { i with status } else i }

def addItems (items : List PublishedItem) : Page :=
  let existingIds := page.sessionItems.map SessionItem.id
  let newItems := items.filter fun i => !existingIds.contains i.id
  { page with sessionItems := page.sessionItems ++ newItems.map PublishedItem.sessionItem }

def handleWsEvent : RealtimeEvent → Page
  | .itemUpdated id status _ => page.setStatus id status
  | .itemCancelled id _ _ _ => page.setStatus id .cancelled
  | .orderCreated _ _ items => page.addItems items
  | .sessionClosed _ _ _ _ => { page with sessionStatus := .closed }
  | .sessionAbandoned _ _ => { page with sessionStatus := .abandoned }
  | .staffCallNew _ _ _ _ _ | .staffCallAck _ _ _ _ _ _ | .sessionRestored _ _ => page

/-- The `onmessage` of the hook. A `seq` of zero counts as missing. -/
def onMessage (m : Message) : Page :=
  let seq := jsNumber m.seq
  if seq ≠ 0 ∧ seq ≤ page.lastSeq then page
  else { page.handleWsEvent m.event with lastSeq := if seq ≠ 0 then seq else page.lastSeq }

/-- The page after the messages still on their way. -/
def receive (messages : List Message) : Page := messages.foldl onMessage page

/-- The page shows the item, with the status of its row. -/
def Shows (i : OrderItem) : Prop :=
  (∃ x ∈ page.sessionItems, x.id = i.id) ∧ ∀ x ∈ page.sessionItems, x.id = i.id → x.status = i.status

instance (i : OrderItem) : Decidable (page.Shows i) := inferInstanceAs (Decidable (_ ∧ _))

/-- `new Date(snapshot.last_activity_at).getTime() * 1_000_000` -/
def baseSeq (lastActivityAt : Timestamp) : Nat :=
  jsNumber ((lastActivityAt / 1000).toNat * 1000000)

/-- The page when its `GET` of the session has answered. -/
def ofSnapshot (session : TableSession) (items : List OrderItem) : Page where
  sessionItems := items.map OrderItem.sessionItem
  sessionStatus := session.status
  lastSeq := baseSeq session.lastActivityAt

section Lemmas

variable {page}
variable {i : OrderItem} {m : Message} {ms : List Message} {id : Uuid} {status : OrderItemStatus}

@[simp] theorem setStatus_lastSeq : (page.setStatus id status).lastSeq = page.lastSeq := rfl

theorem Shows.of_items {page' : Page} (h : page.Shows i)
    (hp : page'.sessionItems = page.sessionItems) : page'.Shows i := by
  unfold Shows
  rw [hp]
  exact h

theorem Shows.setStatus_self (h : ∃ x ∈ page.sessionItems, x.id = i.id) :
    (page.setStatus i.id i.status).Shows i := by
  obtain ⟨x, hx, hid⟩ := h
  refine ⟨⟨{ x with status := i.status }, List.mem_map.mpr ⟨x, hx, by simp [hid]⟩, hid⟩, ?_⟩
  intro y hy hyid
  obtain ⟨z, hz, rfl⟩ := List.mem_map.mp hy
  by_cases hzid : z.id = i.id
  · simp [hzid]
  · simp [hzid] at hyid

theorem Shows.setStatus_other (h : page.Shows i) (hid : id ≠ i.id) :
    (page.setStatus id status).Shows i := by
  obtain ⟨⟨x, hx, hxid⟩, hall⟩ := h
  have hne : x.id ≠ id := fun he => hid (he ▸ hxid)
  refine ⟨⟨x, List.mem_map.mpr ⟨x, hx, by simp [hne]⟩, hxid⟩, ?_⟩
  intro y hy hyid
  obtain ⟨z, hz, rfl⟩ := List.mem_map.mp hy
  by_cases hzid : z.id = id
  · simp only [hzid, if_true] at hyid
    exact absurd hyid hid
  · simp only [hzid, if_false] at hyid ⊢
    exact hall z hz hyid

/-- Whether the hook lets the message through. -/
def Accepts (page : Page) (seq : Nat) : Prop := jsNumber seq = 0 ∨ page.lastSeq < jsNumber seq

instance (seq : Nat) : Decidable (page.Accepts seq) := inferInstanceAs (Decidable (_ ∨ _))

theorem onMessage_accepted (h : page.Accepts m.seq) : page.onMessage m =
    { page.handleWsEvent m.event with lastSeq := max page.lastSeq (jsNumber m.seq) } := by
  have hn : ¬ (jsNumber m.seq ≠ 0 ∧ jsNumber m.seq ≤ page.lastSeq) := by
    rintro ⟨h0, hle⟩
    rcases h with h | h <;> omega
  have hmax : (if jsNumber m.seq ≠ 0 then jsNumber m.seq else page.lastSeq) =
      max page.lastSeq (jsNumber m.seq) := by
    unfold Accepts at h
    split <;> omega
  unfold onMessage
  rw [if_neg hn, hmax]

theorem onMessage_discarded (h : ¬ page.Accepts m.seq) : page.onMessage m = page := by
  have hd : jsNumber m.seq ≠ 0 ∧ jsNumber m.seq ≤ page.lastSeq := by
    constructor
    · exact fun h0 => h (.inl h0)
    · exact not_lt.mp fun hlt => h (.inr hlt)
  rw [onMessage, if_pos hd]

@[simp] theorem receive_nil : page.receive [] = page := rfl

@[simp] theorem receive_cons : page.receive (m :: ms) = (page.onMessage m).receive ms := rfl

@[simp] theorem receive_snoc : page.receive (ms ++ [m]) = (page.receive ms).onMessage m := by
  simp [receive]

theorem shows_ofSnapshot {session : TableSession} {items : List OrderItem} (hi : i ∈ items)
    (huniq : ∀ j ∈ items, j.id = i.id → j = i) : (ofSnapshot session items).Shows i := by
  refine ⟨⟨i.sessionItem, List.mem_map_of_mem hi, rfl⟩, ?_⟩
  intro x hx hid
  obtain ⟨j, hj, rfl⟩ := List.mem_map.mp hx
  rw [huniq j hj hid]
  rfl

end Lemmas

end Page

end QOrder
