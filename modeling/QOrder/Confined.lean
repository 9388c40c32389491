import QOrder.Messages

/-! An announced commit changes rows of one session only, the one whose channel hears of it. -/

namespace KeyedTable

variable {K V : Type} [DecidableEq K] [Keyed V K]

/-- A write set leaves the rows alone that are not of its kind. -/
theorem mem_overlay_other {P : V → Prop} {x : V} {rows ws : List V} (hr : UniqueKeys rows)
    (hw : UniqueKeys ws) (hws : ∀ w ∈ ws, P w) (hold : ∀ w ∈ ws, lookup (key w) rows = some x → P x)
    (hx : ¬ P x) : x ∈ overlay rows ws ↔ x ∈ rows := by
  rw [mem_overlay hr hw]
  constructor
  · intro h
    rcases h with h | ⟨h, -⟩
    · exact absurd (hws x h) hx
    · exact h
  · intro h
    refine .inr ⟨h, ?_⟩
    by_contra hsome
    obtain ⟨w, hl⟩ := Option.ne_none_iff_exists'.mp hsome
    have hkey : key w = key x := key_of_lookup hl
    have hlx : lookup (key w) rows = some x := by
      rw [hkey]
      exact lookup_of_mem hr h
    exact hx (hold w (mem_of_lookup hl) hlx)

end KeyedTable

namespace QOrder

open KeyedTable Concurrency

/-- The rows that are not of the session are the same. -/
structure Data.Confined (sessionId : Uuid) (d d' : Data) : Prop where
  sessions : ∀ s : TableSession, s.id ≠ sessionId → (s ∈ d'.sessions ↔ s ∈ d.sessions)
  orders : ∀ o : Order, o.tableSessionId ≠ sessionId → (o ∈ d'.orders ↔ o ∈ d.orders)
  items : ∀ i : OrderItem, ¬ d'.inSession sessionId i = true → (i ∈ d'.items ↔ i ∈ d.items)
  calls : ∀ c : StaffCall, c.tableSessionId ≠ sessionId → (c ∈ d'.calls ↔ c ∈ d.calls)

/-- The rows are all of the session. -/
structure Data.AllOf (sessionId : Uuid) (d w : Data) : Prop where
  sessions : ∀ s ∈ w.sessions, s.id = sessionId
  orders : ∀ o ∈ w.orders, o.tableSessionId = sessionId
  items : ∀ i ∈ w.items, ∃ o, lookup i.orderId d.orders = some o ∧ o.tableSessionId = sessionId
  calls : ∀ c ∈ w.calls, c.tableSessionId = sessionId

section Writes

variable {owner : Uuid → Uuid} {d w : Data} {sessionId : Uuid}

theorem Data.Fits.confined (hd : d.Ok owner) (hw : d.Fits owner w) (ha : (d.overlay w).AllOf sessionId w) :
    d.Confined sessionId (d.overlay w) where
  sessions s hs := by
    refine mem_overlay_other (P := fun s : TableSession => s.id = sessionId) hd.sessionIds hw.sessionIds
      ha.sessions (fun v hv hl => ?_) hs
    have hid : s.id = v.id := key_of_lookup hl
    rw [hid, ha.sessions v hv]
  orders o ho := by
    refine mem_overlay_other (P := fun o : Order => o.tableSessionId = sessionId) hd.orderIds hw.orderIds
      ha.orders (fun v hv hl => ?_) ho
    have hnone := hw.orderNew v hv
    rw [key_order, hnone] at hl
    cases hl
  items i hi := by
    have hok := hd.overlay hw
    have hin (v : OrderItem) (hv : v ∈ w.items) : (d.overlay w).inSession sessionId v = true :=
      (Data.inSession_iff hok).mpr (ha.items v hv)
    refine mem_overlay_other (P := fun i => (d.overlay w).inSession sessionId i = true) hd.itemIds
      hw.itemIds hin (fun v hv hl => ?_) hi
    have hkept : v.orderId = i.orderId := hw.itemKept v hv i hl
    rw [← Data.inSession_congr hkept]
    exact hin v hv
  calls c hc := by
    refine mem_overlay_other (P := fun c : StaffCall => c.tableSessionId = sessionId) hd.callIds hw.callIds
      ha.calls (fun v hv hl => ?_) hc
    have hkept : v.tableSessionId = c.tableSessionId := hw.callKept v hv c hl
    rw [← hkept, ha.calls v hv]

end Writes

section Made

variable {n : Nat} {owner : Uuid → Uuid} {e : Event n} {h : Holding} {restaurantId sessionId : Uuid}
  {event : RealtimeEvent}

/-- What is announced to a session has written rows of that session. -/
theorem Event.Made.allOf (hm : e.Made owner h) (ha : h.Announces (.session restaurantId sessionId) event) :
    e.after.AllOf sessionId (h.writes e.now e.before) := by
  have hv := hm.valid
  have hg := hm.grows
  have line {o : Order} {items : List OrderItem} (hp : h.Places o items) {w : OrderItem} (hw : w ∈ items) :
      ∃ o', lookup w.orderId e.after.orders = some o' ∧ o'.tableSessionId = o.tableSessionId := by
    rw [(hp.newOrder hv).itemOrder w hw]
    exact ⟨o, (hm.placed hp).1, rfl⟩
  have item {i w : OrderItem} {k : Uuid} (hin : e.before.inSession k i = true) (ho : w.orderId = i.orderId) :
      ∃ o, lookup w.orderId e.after.orders = some o ∧ o.tableSessionId = k := by
    obtain ⟨o, hl, hk⟩ := (Data.inSession_iff hm.ok).mp hin
    exact ⟨o, by rw [ho]; exact hg.order hl, hk⟩
  cases h with
  | reopening s =>
    obtain ⟨⟨-, rfl⟩, -⟩ := ha
    constructor <;> simp [Holding.writes]
  | leaving s items kind stage =>
    have hof : (Channel.session restaurantId sessionId).Of s.restaurantId s.id := by
      cases kind <;> exact ha.1
    obtain ⟨-, rfl⟩ := hof
    have hstage : stage = .dismissed := by
      have hcomplete := hm.complete
      cases stage <;> first | rfl | exact hcomplete.elim
    subst hstage
    refine ⟨?_, by simp [Holding.writes], fun w hw => ?_, fun w hw => ?_⟩
    · intro s' hs'
      rw [List.mem_singleton.mp hs']
      exact Leave.row_id ..
    · obtain ⟨i, hi, -, hmove⟩ := Data.cancelUnserved_move hw
      exact item (Data.mem_itemsOf.mp (hv.2.2.subset hi)).2 hmove.orderId_eq
    · obtain ⟨c, hc, rfl⟩ := Data.mem_dismissedCalls.mp hw
      exact (Data.mem_pendingCalls.mp hc).2.1
  | moved i i' s =>
    obtain ⟨-, hmove, -, hin⟩ := hv
    obtain ⟨⟨-, rfl⟩, -⟩ := ha
    refine ⟨by simp [Holding.writes], by simp [Holding.writes], fun w hw => ?_, by simp [Holding.writes]⟩
    rw [List.mem_singleton.mp hw]
    exact item hin hmove.orderId_eq
  | ordering o items =>
    obtain ⟨⟨-, hk⟩, -⟩ := ha
    refine ⟨by simp [Holding.writes], ?_, fun w hw => hk.symm ▸ line .ordering hw, by simp [Holding.writes]⟩
    simp [Holding.writes, hk]
  | ordered o items s at_ =>
    obtain ⟨⟨-, hk⟩, -⟩ := ha
    have hs := hv.2.2
    refine ⟨?_, ?_, fun w hw => hk.symm ▸ line (.ordered s at_) hw, by simp [Holding.writes]⟩
    · simp [Holding.writes, hk, hs]
    · simp [Holding.writes, hk]
  | calling s c =>
    obtain ⟨⟨-, hk⟩, -⟩ := ha
    have hs := hv.tableSessionId
    constructor <;> simp [Holding.writes, hk, hs]
  | acking c c' =>
    obtain ⟨⟨-, hk⟩, -⟩ := ha
    obtain ⟨-, at_, by_, rfl⟩ := hv
    constructor <;> simp [Holding.writes, hk]
  | _ => exact ha.elim

theorem Event.Made.confined (hm : e.Made owner h) (ha : h.Announces (.session restaurantId sessionId) event) :
    e.before.Confined sessionId e.after := by
  have hfits := Holding.fits hm.ok hm.valid hm.complete
  have hall := hm.allOf ha
  rw [hm.after] at hall ⊢
  exact hfits.confined hm.ok hall

/-- The session is one of the restaurant that hears of it. -/
theorem Event.Made.of_restaurant (hm : e.Made owner h) (ht : e.before.Tenanted)
    (ha : h.Announces (.session restaurantId sessionId) event) :
    ∃ s, lookup sessionId e.after.sessions = some s ∧ s.restaurantId = restaurantId := by
  have hv := hm.valid
  have hg := hm.grows
  have session {s : TableSession} (hs : lookup s.id e.before.sessions = some s) :
      ∃ s', lookup s.id e.after.sessions = some s' ∧ s'.restaurantId = s.restaurantId := by
    obtain ⟨s', hs', -, hr⟩ := hg.session hs
    exact ⟨s', hs', hr⟩
  have order {o : Order} {items : List OrderItem} (hnew : e.before.NewOrder o items) :
      ∃ s', lookup o.tableSessionId e.after.sessions = some s' ∧ s'.restaurantId = o.restaurantId := by
    obtain ⟨s₀, hs₀, hr₀⟩ := hnew.session
    obtain ⟨s₂, hl₂, -, hr₂⟩ := hg.session hs₀
    exact ⟨s₂, hl₂, hr₂.trans hr₀⟩
  cases h with
  | reopening s =>
    obtain ⟨⟨rfl, rfl⟩, -⟩ := ha
    exact session hv.1
  | leaving s items kind stage =>
    have hof : (Channel.session restaurantId sessionId).Of s.restaurantId s.id := by
      cases kind <;> exact ha.1
    obtain ⟨rfl, rfl⟩ := hof
    exact session hv.1
  | moved i i' s =>
    obtain ⟨hi, hmove, hs, hin⟩ := hv
    obtain ⟨⟨rfl, rfl⟩, -⟩ := ha
    obtain ⟨o, ho, hk⟩ := (Data.inSession_iff hm.ok).mp hin
    obtain ⟨o', ho', hr'⟩ := ht.item hi
    obtain ⟨s', hs', hr⟩ := ht.order ho
    have hsame : o = o' := Option.some.inj (ho.symm.trans ho')
    obtain ⟨s₂, hl₂, hr₂⟩ := session hs
    rw [hk, hs] at hs'
    have hss : s = s' := Option.some.inj hs'
    refine ⟨s₂, hl₂, ?_⟩
    rw [hr₂, hss, hr, hsame, hr', hmove.restaurantId_eq]
  | ordering o items =>
    obtain ⟨⟨rfl, rfl⟩, -⟩ := ha
    exact order hv
  | ordered o items s at_ =>
    obtain ⟨⟨rfl, rfl⟩, -⟩ := ha
    exact order hv.1
  | calling s c =>
    obtain ⟨⟨rfl, rfl⟩, -⟩ := ha
    obtain ⟨s₂, hl₂, hr₂⟩ := session hv.session
    exact ⟨s₂, hl₂, hr₂.trans hv.restaurant⟩
  | acking c c' =>
    obtain ⟨⟨rfl, rfl⟩, -⟩ := ha
    obtain ⟨s, hs, hr⟩ := hm.ok.callSession c (mem_of_lookup hv.1)
    obtain ⟨s₂, hl₂, -, hr₂⟩ := hg.session hs
    exact ⟨s₂, hl₂, hr₂.trans hr⟩
  | _ => exact ha.elim

end Made

end QOrder
