import QOrder.KitchenTickets

/-! The kitchen screen's socket. `KitchenBoard` fetches one ticket when it is mounted, and
`useKitchenWebSocket` connects with it, and again after every close. -/

namespace QOrder

open ExpiringStore

inductive SocketPhase
  | idle
  | connecting
  | opened
  /-- `setTimeout(connect, delay)` -/
  | waiting (delay : Nat)
  deriving DecidableEq, Repr

structure KitchenHook where
  ticket : Option String := none
  phase : SocketPhase := .idle
  attempt : Nat := 0
  hasConnectedOnce : Bool := false
  deriving DecidableEq, Repr

namespace KitchenHook

variable (hook : KitchenHook)

def onopen : KitchenHook := { hook with phase := .opened, attempt := 0, hasConnectedOnce := true }

def onclose : KitchenHook :=
  { hook with phase := .waiting (min (1000 * 2 ^ hook.attempt) 30000), attempt := hook.attempt + 1 }

end KitchenHook

/-- A connection attempt after the first success, which a server with an active restaurant
has answered. -/
structure Retry where
  ticket : String
  at_ : Nat
  admitted : Bool

structure KitchenScreen where
  desk : TicketDesk
  reachable : Bool
  hook : KitchenHook
  retries : List Retry := []
  /-- How often `onReconnect` has been called. -/
  resyncs : Nat := 0

namespace KitchenScreen

variable (σ : KitchenScreen)

def restaurantActive (slug : String) : Bool :=
  (σ.desk.accounts.restaurants.find? fun r => r.slug = slug).any RestaurantRow.isActive

/-- `ws_kitchen` answers an attempt of the hook. -/
def attempt (slug ticket : String) : KitchenScreen :=
  let (connection, desk) := σ.desk.wsKitchen (some ticket)
  { desk
    reachable := σ.reachable
    hook := if connection.isSome then σ.hook.onopen else σ.hook.onclose
    retries :=
      if σ.hook.hasConnectedOnce && σ.restaurantActive slug then
        ⟨ticket, σ.desk.clock, connection.isSome⟩ :: σ.retries
      else σ.retries
    resyncs := if connection.isSome && σ.hook.hasConnectedOnce then σ.resyncs + 1 else σ.resyncs }

/-- The screen of the restaurant `slug`, beside everything else that happens at the desk. -/
inductive Step (lib : TokenLibrary) (ttl : Nat) (slug : String) (σ : KitchenScreen) : KitchenScreen → Prop
  | desk {desk : TicketDesk} (h : TicketDesk.Step lib ttl σ.desk desk) : Step lib ttl slug σ { σ with desk }
  | network (reachable : Bool) : Step lib ttl slug σ { σ with reachable }
  | getWsTicket {authorization : Option String} {restaurantId : Uuid} {userId : Option Uuid}
      (ticket : String) (hnone : σ.hook.ticket = none)
      (h : createWsTicket lib σ.desk.clock σ.desk.accounts slug authorization = .ok (restaurantId, userId))
      (hfresh : ticket ∉ σ.desk.issued.map IssuedTicket.ticket) :
      Step lib ttl slug σ { σ with
        desk := σ.desk.issueWsTicket ttl ticket restaurantId userId authorization
        hook := { σ.hook with ticket := some ticket, phase := .connecting } }
  | attempt {ticket : String} (hp : σ.hook.phase = .connecting) (ht : σ.hook.ticket = some ticket)
      (h : σ.reachable = true) : Step lib ttl slug σ (σ.attempt slug ticket)
  | unreachable (hp : σ.hook.phase = .connecting) (h : σ.reachable = false) :
      Step lib ttl slug σ { σ with hook := σ.hook.onclose }
  | drop (hp : σ.hook.phase = .opened) : Step lib ttl slug σ { σ with hook := σ.hook.onclose }
  | timeout {delay : Nat} (hp : σ.hook.phase = .waiting delay) :
      Step lib ttl slug σ { σ with hook := { σ.hook with phase := .connecting } }

/-- A board that has just been mounted. -/
def Initial : Prop := σ.desk.Initial ∧ σ.hook = {} ∧ σ.retries = [] ∧ σ.resyncs = 0

def Reaches (lib : TokenLibrary) (ttl : Nat) (slug : String) : KitchenScreen → KitchenScreen → Prop :=
  Relation.ReflTransGen (Step lib ttl slug)

variable {lib : TokenLibrary} {ttl : Nat} {slug : String} {σ σ₀ σ' : KitchenScreen}

/-- A ticket that has admitted a connection. -/
def Spent (desk : TicketDesk) (ticket : String) : Prop :=
  ticket ∈ desk.connections.map KitchenConnection.ticket

/-- Once the hook has connected, its ticket is spent, and no retry has been admitted. -/
structure Inv (lib : TokenLibrary) (ttl : Nat) (σ : KitchenScreen) : Prop where
  desk : σ.desk.Inv lib ttl
  spent : σ.hook.hasConnectedOnce = true → ∃ ticket, σ.hook.ticket = some ticket ∧ Spent σ.desk ticket
  refused : ∀ r ∈ σ.retries, r.admitted = false
  resyncs : σ.resyncs = 0

section Desk

variable {desk desk' : TicketDesk} {ticket : String}

theorem Spent.wsKitchen (h : Spent desk ticket) (presented : Option String) :
    Spent (desk.wsKitchen presented).2 ticket := by
  cases presented with
  | none => exact h
  | some t =>
    unfold TicketDesk.wsKitchen
    by_cases hempty : t = ""
    · simpa [hempty] using h
    · simp only [hempty, if_false, TicketDesk.verifyWsTicket, getDel]
      cases get desk.tickets desk.clock (WsTicket.key t) with
      | none => exact h
      | some payload => exact List.mem_cons_of_mem _ h

theorem Spent.step (h : Spent desk ticket) (hs : TicketDesk.Step lib ttl desk desk') : Spent desk' ticket := by
  cases hs with
  | wsKitchen presented => exact h.wsKitchen presented
  | _ => exact h

/-- A spent ticket admits nobody. -/
theorem Spent.refused (h : Spent desk ticket) (hi : desk.Inv lib ttl) :
    (desk.wsKitchen (some ticket)).1 = none := by
  unfold TicketDesk.wsKitchen
  by_cases hempty : ticket = ""
  · simp [hempty]
  · simp only [hempty, if_false, TicketDesk.verifyWsTicket, getDel]
    cases hg : get desk.tickets desk.clock (WsTicket.key ticket) with
    | none => rfl
    | some payload =>
      obtain ⟨expiresAt, hs, -⟩ := get_eq_some.mp hg
      obtain ⟨t, -, hkey, -, -, hnew⟩ := hi.stored hs
      rw [← WsTicket.key_inj hkey] at hnew
      exact absurd h hnew

/-- The ticket that has admitted the screen is spent. -/
theorem spent_of_admitted (h : (desk.wsKitchen (some ticket)).1.isSome = true) :
    Spent (desk.wsKitchen (some ticket)).2 ticket := by
  unfold TicketDesk.wsKitchen at h ⊢
  by_cases hempty : ticket = ""
  · simp [hempty] at h
  · simp only [hempty, if_false, TicketDesk.verifyWsTicket, getDel] at h ⊢
    cases hg : get desk.tickets desk.clock (WsTicket.key ticket) with
    | none => simp [hg] at h
    | some payload => exact List.mem_cons_self

end Desk

theorem Inv.initial (h : σ.Initial) : σ.Inv lib ttl where
  desk := .initial h.1
  spent hc := by
    rw [h.2.1] at hc
    cases hc
  refused := by simp [h.2.2.1]
  resyncs := h.2.2.2

theorem Inv.attempt (h : σ.Inv lib ttl) {ticket : String} (ht : σ.hook.ticket = some ticket) :
    (σ.attempt slug ticket).Inv lib ttl := by
  have hdesk := h.desk.wsKitchen (some ticket)
  by_cases hc : σ.hook.hasConnectedOnce = true
  · obtain ⟨t, ht', hspent⟩ := h.spent hc
    rw [ht] at ht'
    cases ht'
    have hrefused := hspent.refused h.desk
    have hstays : Spent (σ.attempt slug ticket).desk ticket := hspent.wsKitchen (some ticket)
    refine ⟨hdesk, fun _ => ⟨ticket, ?_, hstays⟩, fun r hr => ?_, ?_⟩
    · simp [KitchenScreen.attempt, hrefused, KitchenHook.onclose, ht]
    · simp only [KitchenScreen.attempt, hrefused] at hr
      split at hr
      · rcases List.mem_cons.mp hr with rfl | hr
        · rfl
        · exact h.refused r hr
      · exact h.refused r hr
    · simp [KitchenScreen.attempt, hrefused, h.resyncs]
  · refine ⟨hdesk, fun hafter => ⟨ticket, ?_, ?_⟩, fun r hr => ?_, ?_⟩
    · simp only [KitchenScreen.attempt]
      split <;> simp [KitchenHook.onopen, KitchenHook.onclose, ht]
    · refine spent_of_admitted ?_
      by_contra hn
      simp [KitchenScreen.attempt, hn, KitchenHook.onclose, hc] at hafter
    · simp only [KitchenScreen.attempt, hc, Bool.false_and, Bool.false_eq_true, if_false] at hr
      exact h.refused r hr
    · simp [KitchenScreen.attempt, hc, h.resyncs]

theorem Inv.step (h : σ.Inv lib ttl) (hs : Step lib ttl slug σ σ') : σ'.Inv lib ttl := by
  cases hs with
  | desk hd =>
    refine ⟨h.desk.step hd, fun hc => ?_, h.refused, h.resyncs⟩
    obtain ⟨t, ht, hspent⟩ := h.spent hc
    exact ⟨t, ht, hspent.step hd⟩
  | network => exact { h with }
  | getWsTicket ticket hnone hok hfresh =>
    refine ⟨h.desk.step (.createWsTicket ticket hok hfresh), fun hc => ?_, h.refused, h.resyncs⟩
    obtain ⟨t, ht, -⟩ := h.spent hc
    rw [hnone] at ht
    cases ht
  | attempt hp ht hr => exact h.attempt ht
  | unreachable => exact { h with }
  | drop => exact { h with }
  | timeout => exact { h with }

theorem Reaches.inv (hr : Reaches lib ttl slug σ₀ σ) (h₀ : σ₀.Initial) : σ.Inv lib ttl := by
  induction hr with
  | refl => exact .initial h₀
  | tail _ hs ih => exact ih.step hs

/-- Every retry after the first connection is refused: all of them are admitted only if
there is none. The board is never loaded again. -/
theorem retries_admitted (h₀ : σ₀.Initial) (hr : Reaches lib ttl slug σ₀ σ) :
    ((∀ r ∈ σ.retries, r.admitted = true) ↔ σ.retries = []) ∧ σ.resyncs = 0 := by
  have h := hr.inv h₀
  refine ⟨⟨fun hall => ?_, fun hnone => by simp [hnone]⟩, h.resyncs⟩
  refine List.eq_nil_iff_forall_not_mem.mpr fun r hmem => ?_
  have hrefused := h.refused r hmem
  rw [hall r hmem] at hrefused
  cases hrefused

section Cafe

open TicketDesk

theorem attempt_hook {ticket : String} (h : (σ.desk.wsKitchen (some ticket)).1.isSome = true) :
    (σ.attempt slug ticket).hook = σ.hook.onopen := by simp [attempt, h]

theorem attempt_accounts {ticket : String} : (σ.attempt slug ticket).desk.accounts = σ.desk.accounts := by
  simp only [attempt, wsKitchen, verifyWsTicket]
  split
  · rfl
  · cases (getDel σ.desk.tickets σ.desk.clock (WsTicket.key ticket)).1 <;> rfl

theorem attempt_retries {ticket : String} (hc : σ.hook.hasConnectedOnce = true)
    (ha : σ.restaurantActive slug = true) : (σ.attempt slug ticket).retries ≠ [] := by
  simp [attempt, hc, ha]

def cafeBoard : KitchenScreen := { desk := cafeDesk, reachable := true, hook := {} }

/-- The screen connects, loses the connection, and tries again. -/
theorem cafe_retries : ∃ σ, Reaches cafeTokens 30 "cafe" cafeBoard σ ∧ σ.retries ≠ [] := by
  have h₁ : Reaches cafeTokens 30 "cafe" cafeBoard _ :=
    .single (.getWsTicket "ve" rfl cafe_ticket (by simp [cafeBoard, cafeDesk]))
  have hadmitted : ((cafeDesk.issueWsTicket 30 "ve" 1 (some 4) (some "Bearer jwt")).wsKitchen
      (some "ve")).1.isSome = true := by rw [cafe_admitted]; rfl
  have h₂ := h₁.tail (.attempt rfl rfl rfl)
  have h₃ := h₂.tail (.drop (by rw [attempt_hook hadmitted]; rfl))
  have h₄ := h₃.tail (.timeout rfl)
  have h₅ := h₄.tail (.attempt rfl (by rw [attempt_hook hadmitted]; rfl) rfl)
  refine ⟨_, h₅, attempt_retries ?_ ?_⟩
  · change (attempt _ "cafe" "ve").hook.hasConnectedOnce = true
    rw [attempt_hook hadmitted]
    rfl
  · rw [restaurantActive]
    simp only [attempt_accounts]
    rfl

/-- Its retry is refused, although the server can be reached and the restaurant is active. -/
theorem retries_admitted_cafe : ∃ σ, Reaches cafeTokens 30 "cafe" cafeBoard σ ∧ σ.retries ≠ [] ∧
    ¬ (∀ r ∈ σ.retries, r.admitted = true) ∧ σ.resyncs = 0 := by
  obtain ⟨σ, hr, hne⟩ := cafe_retries
  have hinit : cafeBoard.Initial := ⟨⟨fun _ => rfl, rfl, rfl⟩, rfl, rfl, rfl⟩
  obtain ⟨hiff, hresyncs⟩ := retries_admitted hinit hr
  exact ⟨σ, hr, hne, fun hall => hne (hiff.mp hall), hresyncs⟩

theorem retries_admitted_fails : ¬ ∀ (lib : TokenLibrary) (ttl : Nat) (slug : String)
    (σ₀ σ : KitchenScreen), σ₀.Initial → Reaches lib ttl slug σ₀ σ →
      ∀ r ∈ σ.retries, r.admitted = true := by
  intro h
  obtain ⟨σ, hr, hne⟩ := cafe_retries
  have hinit : cafeBoard.Initial := ⟨⟨fun _ => rfl, rfl, rfl⟩, rfl, rfl, rfl⟩
  obtain ⟨r, hmem⟩ := List.exists_mem_of_ne_nil _ hne
  have hrefused := (hr.inv hinit).refused r hmem
  rw [h _ _ _ _ σ hinit hr r hmem] at hrefused
  cases hrefused

end Cafe

end KitchenScreen

end QOrder
