import Mathlib.Logic.Function.Basic
import QOrder.ChannelNames
import QOrder.Messages
import QOrder.Refusals

/-! The sockets of the gateway beside the clients of the database: tickets in Redis, the
names the sockets subscribe to, and the messages Redis hands to equal names. -/

namespace QOrder

open KeyedTable Concurrency

/-- The JSON a ticket stands for. -/
structure TicketPayload where
  restaurantId : String
  role : String
  userId : Option String
  deriving DecidableEq, Repr

abbrev TicketStore := String → Option TicketPayload

namespace WsTicket

def key (ticket : String) : String := "ws_ticket:" ++ ticket

def issue (restaurantId : Uuid) (role : String) (userId : Option Uuid) (ticket : String)
    (store : TicketStore) : TicketStore :=
  Function.update store (key ticket) (some ⟨uuidStr restaurantId, role, userId.map uuidStr⟩)

/-- `GETDEL` -/
def verify (ticket : String) (store : TicketStore) : Option TicketPayload × TicketStore :=
  (store (key ticket), Function.update store (key ticket) none)

theorem key_inj {ticket ticket' : String} (h : key ticket = key ticket') : ticket = ticket' :=
  (String.append_right_inj _).mp h

end WsTicket

structure Delivery where
  channel : Channel
  event : RealtimeEvent

inductive Admission (n : Nat)
  | kitchen (ticket : String)
  | customer (client : Fin n)

structure WebSocket (n : Nat) where
  admission : Admission n
  channelName : String
  subscribed : Bool := false
  /-- What `pubsub.listen()` has still to yield. -/
  queue : List Delivery := []
  received : List Delivery := []

namespace WebSocket

variable {n : Nat} (s : WebSocket n)

def offer (m : Delivery) : WebSocket n :=
  if s.subscribed ∧ s.channelName = m.channel.name then { s with queue := s.queue ++ [m] } else s

/-- The bridge sends the next message. -/
def forward : WebSocket n :=
  match s.queue with
  | m :: ms => { s with queue := ms, received := s.received ++ [m] }
  | [] => s

end WebSocket

structure Gateway (n : Nat) where
  clients : Clients n
  tickets : TicketStore := fun _ => none
  /-- Every ticket issued so far. -/
  issued : List (String × Uuid) := []
  sockets : List (WebSocket n) := []

namespace Gateway

variable {n : Nat} {owner : Uuid → Uuid} {req : Fin n → Request} {D : Deployment owner}

def publish (σ : Gateway n) (p : Clients n) (m : Delivery) : Gateway n :=
  { σ with clients := p, sockets := σ.sockets.map fun s => s.offer m }

/-- The socket's channel is named from the payload of the ticket. -/
def wsKitchen (σ : Gateway n) (ticket : String) (payload : TicketPayload) : Gateway n :=
  { σ with
    tickets := (WsTicket.verify ticket σ.tickets).2
    sockets := σ.sockets ++ [⟨.kitchen ticket, "rt:" ++ payload.restaurantId ++ ":kitchen",
      false, [], []⟩] }

/-- A message whose publishing fails is logged and lost. -/
inductive Step (owner : Uuid → Uuid) (σ : Gateway n) : Gateway n → Prop
  | execute {p : Clients n} (hs : (machine owner n).Step σ.clients p) :
      Step owner σ { σ with clients := p }
  | publish {p : Clients n} {e : Event n} (m : Delivery) (hs : (machine owner n).Step σ.clients p)
      (hh : p.state.history = σ.clients.state.history ++ [e])
      (hq : e.stmt = .publish m.channel m.event) : Step owner σ (σ.publish p m)
  | issueWsTicket (restaurantId : Uuid) (role : String) (userId : Option Uuid) (ticket : String) :
      Step owner σ { σ with
        tickets := WsTicket.issue restaurantId role userId ticket σ.tickets
        issued := σ.issued ++ [(ticket, restaurantId)] }
  | expire (key : String) : Step owner σ { σ with tickets := Function.update σ.tickets key none }
  | wsKitchen {ticket : String} {payload : TicketPayload}
      (h : (WsTicket.verify ticket σ.tickets).1 = some payload) :
      Step owner σ (σ.wsKitchen ticket payload)
  | wsCustomer {t : Fin n} {channel : Channel}
      (h : (σ.clients.threads t).answer = some (.ok (.subscribed (some channel)))) :
      Step owner σ { σ with
        sockets := σ.sockets ++ [⟨.customer t, channel.name, false, [], []⟩] }
  | subscribe (l l' : List (WebSocket n)) (s : WebSocket n) (h : σ.sockets = l ++ s :: l') :
      Step owner σ { σ with sockets := l ++ { s with subscribed := true } :: l' }
  | forward (l l' : List (WebSocket n)) (s : WebSocket n) (h : σ.sockets = l ++ s :: l') :
      Step owner σ { σ with sockets := l ++ s.forward :: l' }
  | close (l l' : List (WebSocket n)) (s : WebSocket n) (h : σ.sockets = l ++ s :: l') :
      Step owner σ { σ with sockets := l ++ l' }

abbrev Reaches (D : Deployment owner) (req : Fin n → Request) : Gateway n → Prop :=
  Relation.ReflTransGen (Step owner) { clients := D.start req }

/-- The channel of a socket, by what it was admitted with. -/
def Admits (σ : Gateway n) (channel : Channel) : Admission n → Prop
  | .kitchen ticket => ∃ restaurantId, channel = .kitchen restaurantId ∧ (ticket, restaurantId) ∈ σ.issued
  | .customer t => (σ.clients.threads t).answer = some (.ok (.subscribed (some channel)))

def Published (σ : Gateway n) (m : Delivery) : Prop :=
  ∃ e ∈ σ.clients.state.history, e.stmt = .publish m.channel m.event

structure Carries (σ : Gateway n) (s : WebSocket n) (channel : Channel) : Prop where
  name : s.channelName = channel.name
  admits : σ.Admits channel s.admission
  carried : ∀ m ∈ s.received ++ s.queue, m.channel = channel ∧ σ.Published m

structure Inv (D : Deployment owner) (req : Fin n → Request) (σ : Gateway n) : Prop where
  reaches : D.Reaches req σ.clients
  tickets : ∀ key payload, σ.tickets key = some payload → ∃ ticket restaurantId,
    key = WsTicket.key ticket ∧ payload.restaurantId = uuidStr restaurantId ∧
      (ticket, restaurantId) ∈ σ.issued
  sockets : ∀ s ∈ σ.sockets, ∃ channel, σ.Carries s channel

section Steps

variable {σ σ' : Gateway n} {s : WebSocket n} {channel : Channel}

/-- What has been issued, answered or published stays so. -/
structure Extends (σ σ' : Gateway n) : Prop where
  issued : ∀ x ∈ σ.issued, x ∈ σ'.issued
  answered : ∀ t res, (σ.clients.threads t).answer = some res → (σ'.clients.threads t).answer = some res
  history : ∀ e ∈ σ.clients.state.history, e ∈ σ'.clients.state.history

theorem Carries.extend (h : σ.Carries s channel) (he : σ.Extends σ') : σ'.Carries s channel where
  name := h.name
  admits := by
    have ha := h.admits
    cases hs : s.admission with
    | kitchen ticket =>
      rw [hs] at ha
      obtain ⟨r, hc, hi⟩ := ha
      exact ⟨r, hc, he.issued _ hi⟩
    | customer t =>
      rw [hs] at ha
      exact he.answered t _ ha
  carried m hm := by
    obtain ⟨hc, e, hmem, hq⟩ := h.carried m hm
    exact ⟨hc, e, he.history e hmem, hq⟩

theorem extends_execute {p : Clients n} (hs : (machine owner n).Step σ.clients p)
    (sockets : List (WebSocket n)) : σ.Extends { σ with clients := p, sockets } where
  issued _ h := h
  answered t res ha := by
    cases hs with
    | env he => exact ha
    | @exec u q k r σ₁ hp hx =>
      have hne : t ≠ u := by
        rintro rfl
        rw [hp] at ha
        cases ha
      simpa [Function.update_of_ne hne] using ha
  history e he := by
    rcases step_event hs with ⟨-, hh⟩ | ⟨x, hh, -⟩
    · simpa only [hh] using he
    · simp only [hh]
      exact List.mem_append_left _ he

theorem extends_issued (tickets : TicketStore) (more : List (String × Uuid)) :
    σ.Extends { σ with tickets, issued := σ.issued ++ more } where
  issued _ h := List.mem_append_left _ h
  answered _ _ h := h
  history _ h := h

theorem Carries.offer {m : Delivery} (h : σ.Carries s channel) (hm : σ.Published m) :
    σ.Carries (s.offer m) channel := by
  unfold WebSocket.offer
  split
  next hs =>
    refine ⟨h.name, h.admits, fun x hx => ?_⟩
    rw [← List.append_assoc] at hx
    rcases List.mem_append.mp hx with hx | hx
    · exact h.carried x hx
    · obtain rfl := List.mem_singleton.mp hx
      have hname : channel.name = x.channel.name := h.name.symm.trans hs.2
      exact ⟨(Channel.name_inj hname).symm, hm⟩
  · exact h

theorem Carries.forward (h : σ.Carries s channel) : σ.Carries s.forward channel := by
  unfold WebSocket.forward
  split
  next m ms hq =>
    refine ⟨h.name, h.admits, fun x hx => h.carried x ?_⟩
    rw [hq]
    simpa using hx
  · exact h

/-- The sockets change, and nothing that their channels depend on. -/
theorem Inv.rearrange (h : Inv D req σ) {sockets : List (WebSocket n)}
    (hs : ∀ s ∈ sockets, ∃ channel, σ.Carries s channel) : Inv D req { σ with sockets } where
  reaches := h.reaches
  tickets := h.tickets
  sockets s hm := by
    obtain ⟨channel, hc⟩ := hs s hm
    exact ⟨channel, hc.name, hc.admits, hc.carried⟩

theorem Inv.replace (h : Inv D req σ) {l l' : List (WebSocket n)} {s s' : WebSocket n}
    (hl : σ.sockets = l ++ s :: l') (hs : ∀ channel, σ.Carries s channel → σ.Carries s' channel) :
    Inv D req { σ with sockets := l ++ s' :: l' } := by
  refine h.rearrange fun x hx => ?_
  have old {x : WebSocket n} (hx : x ∈ l ++ s :: l') : ∃ channel, σ.Carries x channel :=
    h.sockets x (hl ▸ hx)
  rcases List.mem_append.mp hx with hx | hx
  · exact old (List.mem_append_left _ hx)
  rcases List.mem_cons.mp hx with rfl | hx
  · obtain ⟨channel, hc⟩ := old (List.mem_append_right _ List.mem_cons_self)
    exact ⟨channel, hs channel hc⟩
  · exact old (List.mem_append_right _ (List.mem_cons_of_mem _ hx))

theorem Inv.adopt (h : Inv D req σ) {s : WebSocket n} (hs : σ.Carries s channel) :
    Inv D req { σ with sockets := σ.sockets ++ [s] } := by
  refine h.rearrange fun x hx => ?_
  rcases List.mem_append.mp hx with hx | hx
  · exact h.sockets x hx
  · rw [List.mem_singleton.mp hx]
    exact ⟨channel, hs⟩

theorem Inv.drop (h : Inv D req σ) (key : String) :
    Inv D req { σ with tickets := Function.update σ.tickets key none } where
  reaches := h.reaches
  tickets key' payload hk := by
    by_cases he : key' = key
    · simp [he] at hk
    · simp only [Function.update_of_ne he] at hk
      exact h.tickets key' payload hk
  sockets s hm := by
    obtain ⟨channel, hc⟩ := h.sockets s hm
    exact ⟨channel, hc.name, hc.admits, hc.carried⟩

theorem Inv.issue (h : Inv D req σ) (restaurantId : Uuid) (role : String) (userId : Option Uuid)
    (ticket : String) : Inv D req { σ with
      tickets := WsTicket.issue restaurantId role userId ticket σ.tickets
      issued := σ.issued ++ [(ticket, restaurantId)] } where
  reaches := h.reaches
  tickets key payload hk := by
    by_cases he : key = WsTicket.key ticket
    · simp only [he, WsTicket.issue, Function.update_self, Option.some.injEq] at hk
      refine ⟨ticket, restaurantId, he, ?_, List.mem_append_right _ List.mem_cons_self⟩
      rw [← hk]
    · simp only [WsTicket.issue, Function.update_of_ne he] at hk
      obtain ⟨t, r, hkey, hp, hi⟩ := h.tickets key payload hk
      exact ⟨t, r, hkey, hp, List.mem_append_left _ hi⟩
  sockets s hm := by
    obtain ⟨channel, hc⟩ := h.sockets s hm
    exact ⟨channel, hc.extend (extends_issued _ _)⟩

/-- The name built by hand from the ticket's payload is that of a kitchen's channel. -/
theorem Inv.carries_kitchen (h : Inv D req σ) {ticket : String} {payload : TicketPayload}
    (hv : σ.tickets (WsTicket.key ticket) = some payload) : ∃ channel, σ.Carries
      ⟨.kitchen ticket, "rt:" ++ payload.restaurantId ++ ":kitchen", false, [], []⟩ channel := by
  obtain ⟨ticket', r, hkey, hp, hi⟩ := h.tickets _ _ hv
  obtain rfl := WsTicket.key_inj hkey
  refine ⟨.kitchen r, ?_, ⟨r, rfl, hi⟩, by simp⟩
  rw [hp]
  rfl

theorem Inv.step (h : Inv D req σ) (hs : Step owner σ σ') : Inv D req σ' := by
  cases hs with
  | execute hs =>
    refine ⟨h.reaches.tail hs, h.tickets, fun s hm => ?_⟩
    obtain ⟨channel, hc⟩ := h.sockets s hm
    exact ⟨channel, hc.extend (extends_execute hs _)⟩
  | @publish p e m hs hh hq =>
    refine ⟨h.reaches.tail hs, h.tickets, fun s hm => ?_⟩
    obtain ⟨s₀, hm₀, rfl⟩ := List.mem_map.mp hm
    obtain ⟨channel, hc⟩ := h.sockets s₀ hm₀
    refine ⟨channel, (hc.extend (extends_execute hs _)).offer ⟨e, ?_, hq⟩⟩
    simp [hh]
  | issueWsTicket restaurantId role userId ticket => exact h.issue restaurantId role userId ticket
  | expire key => exact h.drop key
  | @wsKitchen ticket payload hv =>
    obtain ⟨channel, hc⟩ := h.carries_kitchen hv
    exact (h.adopt hc).drop (WsTicket.key ticket)
  | @wsCustomer t channel ha => exact h.adopt ⟨rfl, ha, by simp⟩
  | subscribe l l' s hl => exact h.replace hl fun _ hc => ⟨hc.name, hc.admits, hc.carried⟩
  | forward l l' s hl => exact h.replace hl fun _ hc => hc.forward
  | close l l' s hl =>
    refine h.rearrange fun x hx => h.sockets x ?_
    rw [hl]
    rcases List.mem_append.mp hx with hx | hx
    · exact List.mem_append_left _ hx
    · exact List.mem_append_right _ (List.mem_cons_of_mem _ hx)

theorem Reaches.inv (hr : Reaches D req σ) : Inv D req σ := by
  induction hr with
  | refl =>
    refine ⟨.refl, fun key payload hk => ?_, fun s hm => ?_⟩
    · cases hk
    · cases hm
  | tail _ hs ih => exact ih.step hs

end Steps

end Gateway

section Realtime

variable {n : Nat} {owner : Uuid → Uuid} {req : Fin n → Request} {D : Deployment owner} {σ : Gateway n}

/-- Everything the socket has received was published on the channel. -/
def Gateway.Hears (σ : Gateway n) (s : WebSocket n) (channel : Channel) : Prop :=
  ∀ m ∈ s.received, m.channel = channel ∧ σ.Published m

theorem Gateway.Carries.hears {s : WebSocket n} {channel : Channel} (h : σ.Carries s channel) :
    σ.Hears s channel :=
  fun m hm => h.carried m (List.mem_append_left _ hm)

/-- Every message tells of a change committed before, about rows of its channel only; a
refused request publishes none; and a socket receives those of one channel, the kitchen's of
its ticket or that of a session it has met open at its table. -/
theorem realtime_sound (h₀ : D.data.Tenanted) (hr : Gateway.Reaches D req σ) :
    (∀ hb e post channel event, σ.clients.state.history = hb ++ e :: post →
      e.stmt = .publish channel event →
        (∃ e' ∈ hb, e'.client = e.client ∧ e'.isCommit = true ∧ event.Describes e'.before e'.after) ∧
          ∀ x ∈ event.named, e.before.Belongs channel x) ∧
    (∀ t code detail, (σ.clients.threads t).answer = some (.error (.http code detail)) →
      ∀ e ∈ own t σ.clients.state.history, ¬ e.publishes) ∧
    (∀ s ∈ σ.sockets, ∀ ticket, s.admission = .kitchen ticket →
      ∃ restaurantId, (ticket, restaurantId) ∈ σ.issued ∧ σ.Hears s (.kitchen restaurantId)) ∧
    (∀ s ∈ σ.sockets, ∀ t, s.admission = .customer t →
      ∃ qrToken tableId sessionId, req t = .wsCustomer qrToken ∧
        Resolved qrToken tableId (own t σ.clients.state.history) ∧
        MetOpen tableId sessionId (own t σ.clients.state.history) ∧
        σ.Hears s (.session (owner tableId) sessionId)) := by
  have hinv := hr.inv
  have hclients := hinv.reaches
  refine ⟨fun hb e post channel event hh hq => hclients.published h₀ hh hq, fun t code detail ha => ?_,
    fun s hs ticket ht => ?_, fun s hs t ht => ?_⟩
  · exact hclients.refused (e := .http code detail) trivial ha
  · obtain ⟨channel, hc⟩ := hinv.sockets s hs
    have hadmits := hc.admits
    rw [ht] at hadmits
    obtain ⟨r, rfl, hi⟩ := hadmits
    exact ⟨r, hi, hc.hears⟩
  · obtain ⟨channel, hc⟩ := hinv.sockets s hs
    have hadmits := hc.admits
    rw [ht] at hadmits
    have hanswer := (hclients.kept.ended hadmits).2
    cases hreq : req t with
    | wsCustomer qrToken =>
      rw [hreq] at hanswer
      obtain ⟨tableId, k, hres, hmet, rfl⟩ := hanswer channel rfl
      exact ⟨qrToken, tableId, k, rfl, hres, hmet, hc.hears⟩
    | _ =>
      rw [hreq] at hanswer
      exact hanswer.elim

end Realtime

section Cafe

open Gateway

variable {n : Nat} {owner : Uuid → Uuid} {req : Fin n → Request} {D : Deployment owner}

/-- The message the client is about to publish. -/
def publishing (p : Clients n) (t : Fin n) : Option Delivery :=
  match p.threads t with
  | .stmt (.publish channel event) _ => some ⟨channel, event⟩
  | _ => none

theorem Gateway.Reaches.publishes {σ : Gateway n} {p : Clients n} {m : Delivery} {t : Fin n}
    (hr : Gateway.Reaches D req σ) (hm : publishing σ.clients t = some m)
    (hp : turn (fun _ _ _ => true) σ.clients (.step t) = some p) :
    Gateway.Reaches D req (σ.publish p m) := by
  have hs : (machine owner n).Step σ.clients p := (turn_step hp).of_restrict
  unfold publishing at hm
  split at hm
  next channel event k hq =>
    cases hm
    simp only [turn, hq] at hp
    cases hp
    exact hr.tail (.publish ⟨channel, event⟩ hs rfl rfl)
  · cases hm

theorem Gateway.Reaches.clients {p : Clients n} (hr : D.Reaches req p) :
    Gateway.Reaches D req { clients := p } := by
  induction hr with
  | refl => exact .refl
  | tail _ hs ih => exact ih.tail (.execute hs)

def cafeVisitors : Fin 2 → Request
  | 0 => .wsCustomer "ban-1"
  | 1 => cafeOrder

def cafeScreen (queue received : List Delivery) : WebSocket 2 :=
  ⟨.kitchen "ve", kitchenChannel 1, true, queue, received⟩

def cafeGuest (queue received : List Delivery) : WebSocket 2 :=
  ⟨.customer 0, sessionChannel 1 10, true, queue, received⟩

/-- A screen in the kitchen and a guest at the table have both subscribed. -/
theorem cafe_connected {p : Clients 2} (hr : cafe.Reaches cafeVisitors p)
    (ha : (p.threads 0).answer = some (.ok (.subscribed (some (.session 1 10))))) :
    ∃ tickets, Gateway.Reaches cafe cafeVisitors
      ⟨p, tickets, [("ve", 1)], [cafeScreen [] [], cafeGuest [] []]⟩ := by
  have h₁ := (Gateway.Reaches.clients hr).tail (.issueWsTicket 1 "staff" (some 4) "ve")
  have hverify : (WsTicket.verify "ve" (WsTicket.issue 1 "staff" (some 4) "ve" fun _ => none)).1 =
      some ⟨uuidStr 1, "staff", some (uuidStr 4)⟩ := by simp [WsTicket.verify, WsTicket.issue]
  have h₂ := h₁.tail (.wsKitchen hverify)
  have h₃ := h₂.tail (.wsCustomer ha)
  have h₄ := h₃.tail (.subscribe [] _ _ rfl)
  have h₅ := h₄.tail (.subscribe [cafeScreen [] []] [] _ rfl)
  exact ⟨_, h₅⟩

theorem cafe_offer {m : Delivery} (queue received queue' received' : List Delivery) :
    (m.channel = .kitchen 1 → (cafeScreen queue received).offer m = cafeScreen (queue ++ [m]) received ∧
      (cafeGuest queue' received').offer m = cafeGuest queue' received') ∧
    (m.channel = .session 1 10 → (cafeScreen queue received).offer m = cafeScreen queue received ∧
      (cafeGuest queue' received').offer m = cafeGuest (queue' ++ [m]) received') := by
  have hne : (Channel.kitchen 1).name ≠ (Channel.session 1 10).name := fun he => by
    cases Channel.name_inj he
  refine ⟨fun hm => ?_, fun hm => ?_⟩
  · rw [WebSocket.offer, WebSocket.offer, hm]
    exact ⟨if_pos ⟨rfl, rfl⟩, if_neg fun he => hne he.2.symm⟩
  · rw [WebSocket.offer, WebSocket.offer, hm]
    exact ⟨if_neg fun he => hne he.2, if_pos ⟨rfl, rfl⟩⟩

/-- The screen and the guest are told of the guest's order. -/
theorem realtime_sound_cafe : ∃ σ : Gateway 2, Gateway.Reaches cafe cafeVisitors σ ∧
    (∃ s ∈ σ.sockets, s.received ≠ [] ∧ σ.Hears s (.kitchen 1)) ∧
    ∃ s ∈ σ.sockets, s.received ≠ [] ∧
      ∃ tableId sessionId, MetOpen tableId sessionId (own 0 σ.clients.state.history) ∧
        σ.Hears s (.session 1 sessionId) := by
  obtain ⟨p, hr, hc⟩ := cafe.reaches_play cafeVisitors
    (fun p => response p 0 = some (.subscribed (some (.session 1 10))) ∧
      (publishing p 1).any (fun m => m.channel = .kitchen 1) ∧
      (turn (fun _ _ _ => true) p (.step 1)).any fun p' =>
        (publishing p' 1).any (fun m => m.channel = .session 1 10) ∧
          (turn (fun _ _ _ => true) p' (.step 1)).isSome)
    (steps 0 6 ++ steps 1 10) (by decide)
  obtain ⟨ha, hm, hp⟩ := of_decide_eq_true hc
  obtain ⟨m, hm, hk⟩ := (Option.any_eq_true _ _).mp hm
  obtain ⟨p', hp, hc'⟩ := (Option.any_eq_true _ _).mp hp
  obtain ⟨hm', hp'⟩ := of_decide_eq_true hc'
  obtain ⟨m', hm', hk'⟩ := (Option.any_eq_true _ _).mp hm'
  obtain ⟨p'', hp'⟩ := Option.isSome_iff_exists.mp hp'
  obtain ⟨tickets, h⟩ := cafe_connected hr (answer_of_response ha)
  have hoffer := (cafe_offer [] [] [] []).1 (of_decide_eq_true hk)
  have hoffer' := (cafe_offer [] [m] [] []).2 (of_decide_eq_true hk')
  have h₁ := h.publishes hm hp
  simp only [Gateway.publish, List.map_cons, List.map_nil, hoffer] at h₁
  have h₂ : Gateway.Reaches cafe cafeVisitors
      ⟨p', tickets, [("ve", 1)], [cafeScreen [] [m], cafeGuest [] []]⟩ := h₁.tail (.forward [] [cafeGuest [] []] (cafeScreen [m] []) rfl)
  have h₃ := h₂.publishes hm' hp'
  simp only [Gateway.publish, List.map_cons, List.map_nil, hoffer'] at h₃
  have h₄ : Gateway.Reaches cafe cafeVisitors
      ⟨p'', tickets, [("ve", 1)], [cafeScreen [] [m], cafeGuest [] [m']]⟩ :=
    h₃.tail (.forward [cafeScreen [] [m]] [] (cafeGuest [m'] []) rfl)
  have hsound := (realtime_sound Data.tenanted_empty h₄).2.2
  refine ⟨_, h₄, ⟨cafeScreen [] [m], by simp, by simp [cafeScreen], ?_⟩,
    ⟨cafeGuest [] [m'], by simp, by simp [cafeGuest], ?_⟩⟩
  · obtain ⟨r, hi, hhears⟩ := hsound.1 (cafeScreen [] [m]) (by simp) "ve" rfl
    obtain rfl : r = 1 := by simpa using hi
    exact hhears
  · obtain ⟨_, tableId, k, -, -, hmet, hhears⟩ := hsound.2 (cafeGuest [] [m']) (by simp) 0 rfl
    exact ⟨tableId, k, hmet, hhears⟩

end Cafe

end QOrder
