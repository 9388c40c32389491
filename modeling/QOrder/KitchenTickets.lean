import QOrder.ExpiringStore
import QOrder.RealtimeGateway

/-! The tickets of the kitchen screens: the guard that issues them, their life in Redis,
and the connections that the gateway admits with them. -/

namespace QOrder

open ExpiringStore

/-- `jose.jwt.decode` with the deployment's secret at a time, and `uuid.UUID`. A decoded
token maps the names of its claims to their values. -/
structure TokenLibrary where
  decode : Nat → String → Option (String → Option String)
  uuid : String → Option Uuid

/-- The `TokenPayload` of a decoded token. -/
structure AccessToken where
  sub : Uuid
  restaurantId : Uuid
  role : String
  deriving DecidableEq, Repr

/-- `none` is the `TokenError`. -/
def decodeAccessToken (lib : TokenLibrary) (now : Nat) (token : String) : Option AccessToken :=
  (lib.decode now token).bind fun raw =>
    ((raw "sub").bind lib.uuid).bind fun sub =>
      ((raw "restaurant_id").bind lib.uuid).bind fun restaurantId =>
        (raw "role").map fun role => ⟨sub, restaurantId, role⟩

/-- A row of `restaurants`. -/
structure RestaurantRow where
  id : Uuid
  slug : String
  isActive : Bool
  deriving DecidableEq, Repr

/-- A row of `restaurant_settings`. -/
structure ScreenSettings where
  restaurantId : Uuid
  kitchenScreenRequiresPin : Bool
  deriving DecidableEq, Repr

structure Accounts where
  restaurants : List RestaurantRow
  settings : List ScreenSettings
  deriving DecidableEq, Repr

namespace Accounts

variable (db : Accounts)

def getKitchenPinRequired (restaurantId : Uuid) : Bool :=
  match db.settings.find? fun s => s.restaurantId = restaurantId with
  | some s => s.kitchenScreenRequiresPin
  | none => true

end Accounts

/-- `authorization.split(" ", 1)[1]` of a header that starts with `bearer `, in any case. -/
def bearerToken (authorization : Option String) : Option String :=
  authorization.bind fun header =>
    if (header.toList.take 7).map Char.toLower = "bearer ".toList then
      some (String.ofList ((header.toList.dropWhile (· ≠ ' ')).drop 1))
    else none

/-- The restaurant and the user that `create_ws_ticket` issues a ticket for. -/
def createWsTicket (lib : TokenLibrary) (now : Nat) (db : Accounts) (restaurantSlug : String)
    (authorization : Option String) : Except Exn (Uuid × Option Uuid) :=
  match db.restaurants.find? fun r => r.slug = restaurantSlug with
  | none => .error (.http 404 "Restaurant not found or not active")
  | some restaurant =>
    if restaurant.isActive = false then .error (.http 404 "Restaurant not found or not active")
    else if db.getKitchenPinRequired restaurant.id then
      match bearerToken authorization with
      | none => .error (.http 401 "Staff JWT required when kitchen PIN is enabled")
      | some token =>
        match decodeAccessToken lib now token with
        | none => .error (.http 401 "Invalid or expired token")
        | some payload =>
          if payload.role ≠ "staff" ∧ payload.role ≠ "admin" then
            .error (.http 403 "Staff or admin role required")
          else if payload.restaurantId ≠ restaurant.id then
            .error (.http 403 "Token does not belong to this restaurant")
          else .ok (restaurant.id, some payload.sub)
    else .ok (restaurant.id, none)

/-- A ticket that has been issued, with what its caller and the database said then. -/
structure IssuedTicket where
  ticket : String
  restaurantId : Uuid
  userId : Option Uuid
  issuedAt : Nat
  accounts : Accounts
  authorization : Option String

/-- A connection that `ws_kitchen` has admitted. -/
structure KitchenConnection where
  ticket : String
  admittedAt : Nat
  payload : TicketPayload
  channelName : String

structure TicketDesk where
  clock : Nat
  accounts : Accounts
  tickets : Store String TicketPayload
  issued : List IssuedTicket := []
  connections : List KitchenConnection := []

namespace TicketDesk

variable (σ : TicketDesk)

/-- `issue_ws_ticket` with the role that `create_ws_ticket` gives. -/
def issueWsTicket (ttl : Nat) (ticket : String) (restaurantId : Uuid) (userId : Option Uuid)
    (authorization : Option String) : TicketDesk :=
  { σ with
    tickets := set σ.tickets (WsTicket.key ticket) ⟨uuidStr restaurantId, "staff", userId.map uuidStr⟩
      (σ.clock + ttl)
    issued := ⟨ticket, restaurantId, userId, σ.clock, σ.accounts, authorization⟩ :: σ.issued }

def verifyWsTicket (ticket : String) : Option TicketPayload × TicketDesk :=
  let (payload, tickets) := getDel σ.tickets σ.clock (WsTicket.key ticket)
  (payload, { σ with tickets })

/-- A missing, empty, expired or used ticket closes the socket with 4401. -/
def wsKitchen (ticket : Option String) : Option KitchenConnection × TicketDesk :=
  match ticket with
  | none => (none, σ)
  | some ticket =>
    if ticket = "" then (none, σ)
    else
      match σ.verifyWsTicket ticket with
      | (none, σ') => (none, σ')
      | (some payload, σ') =>
        let connection : KitchenConnection :=
          ⟨ticket, σ.clock, payload, "rt:" ++ payload.restaurantId ++ ":kitchen"⟩
        (some connection, { σ' with connections := connection :: σ.connections })

/-- Time passes, the administrators edit, clients ask for tickets and connect with any
string, and Redis removes expired entries. A generated ticket is fresh. -/
inductive Step (lib : TokenLibrary) (ttl : Nat) (σ : TicketDesk) : TicketDesk → Prop
  | tick (clock : Nat) (h : σ.clock ≤ clock) : Step lib ttl σ { σ with clock }
  | edit (accounts : Accounts) : Step lib ttl σ { σ with accounts }
  | createWsTicket {restaurantSlug : String} {authorization : Option String} {restaurantId : Uuid}
      {userId : Option Uuid} (ticket : String)
      (h : createWsTicket lib σ.clock σ.accounts restaurantSlug authorization = .ok (restaurantId, userId))
      (hfresh : ticket ∉ σ.issued.map IssuedTicket.ticket) :
      Step lib ttl σ (σ.issueWsTicket ttl ticket restaurantId userId authorization)
  | wsKitchen (ticket : Option String) : Step lib ttl σ (σ.wsKitchen ticket).2
  | expire (key : String) : Step lib ttl σ { σ with tickets := expire σ.tickets σ.clock key }

def Initial : Prop := (∀ key, σ.tickets key = none) ∧ σ.issued = [] ∧ σ.connections = []

def Reaches (lib : TokenLibrary) (ttl : Nat) : TicketDesk → TicketDesk → Prop :=
  Relation.ReflTransGen (Step lib ttl)

end TicketDesk

section Guard

variable {lib : TokenLibrary} {now : Nat} {db : Accounts} {restaurantSlug : String}
  {authorization : Option String} {restaurantId : Uuid} {userId : Option Uuid}

/-- The caller has presented a valid token of the restaurant's staff or administrators. -/
def Authorized (lib : TokenLibrary) (now : Nat) (authorization : Option String) (restaurantId : Uuid)
    (userId : Option Uuid) : Prop :=
  ∃ token payload, bearerToken authorization = some token ∧
    decodeAccessToken lib now token = some payload ∧ (payload.role = "staff" ∨ payload.role = "admin") ∧
    payload.restaurantId = restaurantId ∧ userId = some payload.sub

theorem createWsTicket_ok
    (h : createWsTicket lib now db restaurantSlug authorization = .ok (restaurantId, userId)) :
    (∃ r ∈ db.restaurants, r.slug = restaurantSlug ∧ r.id = restaurantId ∧ r.isActive = true) ∧
      (db.getKitchenPinRequired restaurantId = true →
        Authorized lib now authorization restaurantId userId) := by
  unfold createWsTicket at h
  split at h
  next => cases h
  next restaurant hr =>
    have hmem := List.mem_of_find?_eq_some hr
    have hslug : restaurant.slug = restaurantSlug := by simpa using List.find?_some hr
    split at h
    next => cases h
    next hactive =>
      have hactive' : restaurant.isActive = true := by simpa using hactive
      split at h
      next hpin =>
        split at h
        next => cases h
        next token ht =>
          split at h
          next => cases h
          next payload hp =>
            split at h
            next => cases h
            next hrole =>
              split at h
              next => cases h
              next hown =>
                cases h
                have hrole' : payload.role = "staff" ∨ payload.role = "admin" := by
                  by_contra hn
                  exact hrole (not_or.mp hn)
                exact ⟨⟨restaurant, hmem, hslug, rfl, hactive'⟩, fun _ =>
                  ⟨token, payload, ht, hp, hrole', not_not.mp hown, rfl⟩⟩
      next hpin =>
        cases h
        exact ⟨⟨restaurant, hmem, hslug, rfl, hactive'⟩, fun hp => absurd hp hpin⟩

end Guard

namespace IssuedTicket

variable (t : IssuedTicket)

def payload : TicketPayload := ⟨uuidStr t.restaurantId, "staff", t.userId.map uuidStr⟩

/-- What `create_ws_ticket` has checked. -/
def Guarded (lib : TokenLibrary) : Prop :=
  (∃ r ∈ t.accounts.restaurants, r.id = t.restaurantId ∧ r.isActive = true) ∧
    (t.accounts.getKitchenPinRequired t.restaurantId = true →
      Authorized lib t.issuedAt t.authorization t.restaurantId t.userId)

/-- The connection is the one that the ticket stands for. -/
structure Admits (ttl : Nat) (c : KitchenConnection) : Prop where
  ticket : c.ticket = t.ticket
  inTime : c.admittedAt < t.issuedAt + ttl
  payload : c.payload = t.payload
  channelName : c.channelName = (Channel.kitchen t.restaurantId).name

end IssuedTicket

namespace TicketDesk

variable {lib : TokenLibrary} {ttl : Nat} {σ σ' σ₀ : TicketDesk} {ticket : String} {c : KitchenConnection}

/-- Redis has only tickets that were issued and have not admitted a connection. -/
structure Inv (lib : TokenLibrary) (ttl : Nat) (σ : TicketDesk) : Prop where
  issuedOnce : (σ.issued.map IssuedTicket.ticket).Nodup
  connectedOnce : (σ.connections.map KitchenConnection.ticket).Nodup
  guarded : ∀ t ∈ σ.issued, t.Guarded lib
  connected : ∀ c ∈ σ.connections, ∃ t ∈ σ.issued, t.Admits ttl c
  stored : ∀ {key payload expiresAt}, σ.tickets key = some ⟨payload, expiresAt⟩ →
    ∃ t ∈ σ.issued, key = WsTicket.key t.ticket ∧ payload = t.payload ∧ expiresAt = t.issuedAt + ttl ∧
      t.ticket ∉ σ.connections.map KitchenConnection.ticket

theorem Inv.initial (h : σ.Initial) : σ.Inv lib ttl where
  issuedOnce := by simp [h.2.1]
  connectedOnce := by simp [h.2.2]
  guarded := by simp [h.2.1]
  connected := by simp [h.2.2]
  stored hs := by
    rw [h.1] at hs
    cases hs

theorem Inv.issue (h : σ.Inv lib ttl) {restaurantId : Uuid} {userId : Option Uuid}
    {authorization : Option String} (hfresh : ticket ∉ σ.issued.map IssuedTicket.ticket)
    (hg : IssuedTicket.Guarded ⟨ticket, restaurantId, userId, σ.clock, σ.accounts, authorization⟩ lib) :
    (σ.issueWsTicket ttl ticket restaurantId userId authorization).Inv lib ttl where
  issuedOnce := List.nodup_cons.mpr ⟨hfresh, h.issuedOnce⟩
  connectedOnce := h.connectedOnce
  guarded t ht := by
    rcases List.mem_cons.mp ht with rfl | ht
    · exact hg
    · exact h.guarded t ht
  connected c hc := by
    obtain ⟨t, ht, ha⟩ := h.connected c hc
    exact ⟨t, List.mem_cons_of_mem _ ht, ha⟩
  stored {key payload expiresAt} hs := by
    by_cases hk : key = WsTicket.key ticket
    · subst hk
      have he := set_self.symm.trans hs
      cases he
      refine ⟨_, List.mem_cons_self, rfl, rfl, rfl, fun hm => hfresh ?_⟩
      obtain ⟨c, hc, he⟩ := List.mem_map.mp hm
      obtain ⟨t, ht, ha⟩ := h.connected c hc
      have hticket : t.ticket = ticket := ha.ticket.symm.trans he
      exact hticket ▸ List.mem_map_of_mem ht
    · obtain ⟨t, ht, hrest⟩ := h.stored ((set_other hk).symm.trans hs)
      exact ⟨t, List.mem_cons_of_mem _ ht, hrest⟩

/-- Consuming a ticket, or losing one, leaves the others. -/
theorem Inv.drop (h : σ.Inv lib ttl) {tickets : Store String TicketPayload}
    (hd : ∀ {key payload expiresAt}, tickets key = some ⟨payload, expiresAt⟩ →
      σ.tickets key = some ⟨payload, expiresAt⟩) : Inv lib ttl { σ with tickets } where
  issuedOnce := h.issuedOnce
  connectedOnce := h.connectedOnce
  guarded := h.guarded
  connected := h.connected
  stored hs := h.stored (hd hs)

theorem Inv.wsKitchen (h : σ.Inv lib ttl) (ticket : Option String) : (σ.wsKitchen ticket).2.Inv lib ttl := by
  cases ticket with
  | none => exact h
  | some ticket =>
    unfold TicketDesk.wsKitchen
    by_cases hempty : ticket = ""
    · simpa [hempty] using h
    · have hdrop : Inv lib ttl { σ with tickets := del σ.tickets (WsTicket.key ticket) } :=
        h.drop fun hs => (entry_of_del hs).2
      simp only [hempty, if_false, verifyWsTicket, getDel]
      cases hg : get σ.tickets σ.clock (WsTicket.key ticket) with
      | none => exact hdrop
      | some payload =>
        obtain ⟨expiresAt, hs, hlt⟩ := get_eq_some.mp hg
        obtain ⟨t, ht, hkey, hp, he, hnew⟩ := h.stored hs
        have hticket : ticket = t.ticket := WsTicket.key_inj hkey
        subst hticket hp he
        refine ⟨h.issuedOnce, List.nodup_cons.mpr ⟨hnew, h.connectedOnce⟩, h.guarded, ?_, ?_⟩
        · intro c hc
          rcases List.mem_cons.mp hc with rfl | hc
          · exact ⟨t, ht, rfl, hlt, rfl, rfl⟩
          · exact h.connected c hc
        · intro key payload' expiresAt' hs'
          obtain ⟨hne, hs'⟩ := entry_of_del hs'
          obtain ⟨t', ht', hkey', hp', he', hnew'⟩ := h.stored hs'
          refine ⟨t', ht', hkey', hp', he', ?_⟩
          rw [List.map_cons, List.mem_cons, not_or]
          refine ⟨fun hsame => hne ?_, hnew'⟩
          rw [hkey', hsame]

theorem Inv.step (h : σ.Inv lib ttl) (hs : Step lib ttl σ σ') : σ'.Inv lib ttl := by
  cases hs with
  | tick => exact { h with }
  | edit => exact { h with }
  | createWsTicket ticket hok hfresh =>
    obtain ⟨⟨r, hr, -, hid, hactive⟩, hpin⟩ := createWsTicket_ok hok
    exact h.issue hfresh ⟨⟨r, hr, hid, hactive⟩, hpin⟩
  | wsKitchen ticket => exact h.wsKitchen ticket
  | expire key => exact h.drop entry_of_expire

theorem Reaches.inv (hr : Reaches lib ttl σ₀ σ) (h₀ : σ₀.Initial) : σ.Inv lib ttl := by
  induction hr with
  | refl => exact .initial h₀
  | tail _ hs ih => exact ih.step hs

/-- Every connection goes back to the one issue of its ticket, in time and under the guard,
and listens to the kitchen of the restaurant that the ticket was issued for. -/
theorem kitchen_tickets (h₀ : σ₀.Initial) (hr : Reaches lib ttl σ₀ σ) :
    (σ.connections.map KitchenConnection.ticket).Nodup ∧
    ∀ c ∈ σ.connections, ∃ t ∈ σ.issued, t.ticket = c.ticket ∧
      (∀ t' ∈ σ.issued, t'.ticket = c.ticket → t' = t) ∧ c.admittedAt < t.issuedAt + ttl ∧
      (∀ channel : Channel, channel.name = c.channelName ↔ channel = .kitchen t.restaurantId) ∧
      (t.accounts.getKitchenPinRequired t.restaurantId = true →
        (∃ r ∈ t.accounts.restaurants, r.id = t.restaurantId ∧ r.isActive = true) ∧
        Authorized lib t.issuedAt t.authorization t.restaurantId t.userId ∧
        c.payload.userId = t.userId.map uuidStr) := by
  have h := hr.inv h₀
  refine ⟨h.connectedOnce, fun c hc => ?_⟩
  obtain ⟨t, ht, ha⟩ := h.connected c hc
  obtain ⟨hactive, hpin⟩ := h.guarded t ht
  refine ⟨t, ht, ha.ticket.symm, fun t' ht' he => ?_, ha.inTime, fun channel => ?_, fun hp => ?_⟩
  · exact List.inj_on_of_nodup_map h.issuedOnce ht' ht (he.trans ha.ticket)
  · rw [ha.channelName]
    exact ⟨Channel.name_inj, fun hch => by rw [hch]⟩
  · exact ⟨hactive, hpin hp, by rw [ha.payload]; rfl⟩

section Cafe

/-- A library that knows the cook's token. -/
def cafeTokens : TokenLibrary where
  decode now token := if token = "jwt" ∧ now < 100 then
    some fun claim => if claim = "sub" then some (uuidStr 4)
      else if claim = "restaurant_id" then some (uuidStr 1)
      else if claim = "role" then some "staff" else none
  else none
  uuid s := if s = uuidStr 4 then some 4 else if s = uuidStr 1 then some 1 else none

def cafeAccounts : Accounts := ⟨[⟨1, "cafe", true⟩], []⟩

def cafeDesk : TicketDesk := { clock := 0, accounts := cafeAccounts, tickets := fun _ => none }

theorem cafe_ticket :
    createWsTicket cafeTokens 0 cafeAccounts "cafe" (some "Bearer jwt") = .ok (1, some 4) := by
  have hne : uuidStr 1 ≠ uuidStr 4 := by decide
  simp [createWsTicket, cafeAccounts, Accounts.getKitchenPinRequired, bearerToken, decodeAccessToken,
    cafeTokens, hne]

theorem cafe_admitted : (cafeDesk.issueWsTicket 30 "ve" 1 (some 4) (some "Bearer jwt")).wsKitchen (some "ve") =
    (some ⟨"ve", 0, ⟨uuidStr 1, "staff", some (uuidStr 4)⟩, kitchenChannel 1⟩,
      { clock := 0, accounts := cafeAccounts
        tickets := del (set cafeDesk.tickets (WsTicket.key "ve") ⟨uuidStr 1, "staff", some (uuidStr 4)⟩ 30)
          (WsTicket.key "ve")
        issued := [⟨"ve", 1, some 4, 0, cafeAccounts, some "Bearer jwt"⟩]
        connections := [⟨"ve", 0, ⟨uuidStr 1, "staff", some (uuidStr 4)⟩, kitchenChannel 1⟩] }) := by
  have hget : ExpiringStore.get (set cafeDesk.tickets (WsTicket.key "ve")
      ⟨uuidStr 1, "staff", some (uuidStr 4)⟩ 30) 0 (WsTicket.key "ve") =
        some ⟨uuidStr 1, "staff", some (uuidStr 4)⟩ := get_of_entry set_self (by decide)
  simp only [cafeDesk] at hget
  simp [wsKitchen, verifyWsTicket, getDel, issueWsTicket, cafeDesk, kitchenChannel, hget]

/-- The cook's screen connects with the ticket that it was issued. -/
theorem kitchen_tickets_cafe : ∃ σ, Reaches cafeTokens 30 cafeDesk σ ∧
    ∃ c ∈ σ.connections, c.channelName = kitchenChannel 1 ∧ ∃ t ∈ σ.issued, t.ticket = c.ticket ∧
      Authorized cafeTokens t.issuedAt t.authorization t.restaurantId t.userId := by
  have h₁ : Reaches cafeTokens 30 cafeDesk _ := .single (.createWsTicket "ve" cafe_ticket (by simp [cafeDesk]))
  have h₂ := h₁.tail (.wsKitchen (some "ve"))
  have h := (kitchen_tickets ⟨fun _ => rfl, rfl, rfl⟩ h₂).2
  rw [cafe_admitted] at h
  obtain ⟨t, ht, hticket, -, -, -, hpin⟩ := h _ (List.mem_singleton_self _)
  have hrequired : t.accounts.getKitchenPinRequired t.restaurantId = true := by
    rw [List.mem_singleton.mp ht]
    rfl
  refine ⟨_, h₂, ?_⟩
  rw [cafe_admitted]
  exact ⟨_, List.mem_singleton_self _, rfl, t, ht, hticket, (hpin hrequired).2.1⟩

end Cafe

end TicketDesk

end QOrder
