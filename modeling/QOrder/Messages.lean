import QOrder.Tenancy

/-! A published message describes a change that its client has committed before, and names
only rows of the restaurant, and of the session, whose channel it is published on. -/

namespace QOrder

open KeyedTable Concurrency

/-- The message describes what has changed from `d` to `d'`. -/
def RealtimeEvent.Describes (d d' : Data) : RealtimeEvent → Prop
  | orderCreated orderId tableSessionId items =>
    lookup orderId d.orders = none ∧
      (∃ o, lookup orderId d'.orders = some o ∧ o.tableSessionId = tableSessionId) ∧
      items ≠ [] ∧ ∀ k, k ∈ items.map PublishedItem.id ↔
        ∃ i, lookup k d'.items = some i ∧ i.orderId = orderId
  | itemUpdated itemId status orderId =>
    ∃ i i', lookup itemId d.items = some i ∧ lookup itemId d'.items = some i' ∧
      i.status ≠ status ∧ i'.status = status ∧ i'.orderId = orderId
  | itemCancelled itemId status _ orderId =>
    ∃ i i', lookup itemId d.items = some i ∧ lookup itemId d'.items = some i' ∧
      i.status ≠ .cancelled ∧ status = .cancelled ∧ i'.status = .cancelled ∧
      ∀ k ∈ orderId, k = i'.orderId
  | staffCallNew callId _ tableSessionId _ _ =>
    lookup callId d.calls = none ∧
      ∃ c, lookup callId d'.calls = some c ∧ c.tableSessionId = tableSessionId
  | staffCallAck callId _ tableSessionId _ _ _ =>
    ∃ c c', lookup callId d.calls = some c ∧ lookup callId d'.calls = some c' ∧
      c'.status = .acknowledged ∧ c'.tableSessionId = tableSessionId
  | sessionClosed sessionId tableId totalAmount _ =>
    ∃ s s', lookup sessionId d.sessions = some s ∧ lookup sessionId d'.sessions = some s' ∧
      s.status ≠ .closed ∧ s'.status = .closed ∧ s'.tableId = tableId ∧
      s'.totalAmount = some totalAmount
  | sessionAbandoned sessionId restaurantId =>
    ∃ s s', lookup sessionId d.sessions = some s ∧ lookup sessionId d'.sessions = some s' ∧
      s.status = .opened ∧ s'.status = .abandoned ∧ s'.restaurantId = restaurantId
  | sessionRestored sessionId tableId =>
    ∃ s s', lookup sessionId d.sessions = some s ∧ lookup sessionId d'.sessions = some s' ∧
      s.status = .abandoned ∧ s'.status = .opened ∧ s'.tableId = tableId

theorem OrderItem.Move.status_ne {now : Timestamp} {i i' : OrderItem} (h : i.Move now i') :
    i.status ≠ i'.status := by
  cases h with
  | cook h => simp [advance, h]
  | ready h => rcases h with h | h <;> simp [advance, h]
  | serve _ h =>
    intro he
    rw [isUnserved, he] at h
    cases h
  | undo h => simp [OrderItem.undo, h]
  | cancel _ _ h =>
    intro he
    rw [isUnserved, he] at h
    cases h

section Made

variable {n : Nat} {owner : Uuid → Uuid} {e : Event n} {channel : Channel} {event : RealtimeEvent}

theorem lookup_written {V : Type} [Keyed V Uuid] {k : Uuid} {r : V} (rows : List V) (h : key r = k) :
    lookup k (overlay rows [r]) = some r := by
  rw [lookup_overlay, lookup_singleton, if_pos h]
  rfl

theorem Event.Made.session_left {s : TableSession} {items : List OrderItem} {kind : Leave} {stage : Stage}
    (hm : e.Made owner (.leaving s items kind stage)) :
    ∃ s', lookup s.id e.after.sessions = some s' ∧ s' = kind.row e.now e.before s .dismissed := by
  cases stage with
  | dismissed =>
    refine ⟨_, ?_, rfl⟩
    rw [hm.after]
    exact lookup_written _ (Leave.row_id ..)
  | _ => exact absurd hm.complete (by simp [Holding.Complete])

theorem Event.Made.placed {h : Holding} (hm : e.Made owner h) {o : Order} {items : List OrderItem}
    (hp : h.Places o items) : lookup o.id e.after.orders = some o ∧
      ∀ i ∈ items, lookup i.id e.after.items = some i := by
  rw [hm.after]
  constructor
  · show lookup o.id (overlay e.before.orders (h.writes e.now e.before).orders) = some o
    rw [hp.writes_orders]
    exact lookup_written _ rfl
  · intro i hi
    have hl : lookup i.id items = some i := lookup_of_mem (hp.newOrder hm.valid).itemIds hi
    simp [hp.writes_items, hl]

theorem Event.Made.placed_describes {h : Holding} (hm : e.Made owner h) {o : Order} {items : List OrderItem}
    (hp : h.Places o items) {published : List PublishedItem} (hne : published ≠ [])
    (hids : published.map PublishedItem.id = items.map OrderItem.id) :
    (RealtimeEvent.orderCreated o.id o.tableSessionId published).Describes e.before e.after := by
  have hnew := hp.newOrder hm.valid
  obtain ⟨ho, hitems⟩ := hm.placed hp
  refine ⟨hnew.orderNew, ⟨o, ho, rfl⟩, hne, fun k => ?_⟩
  rw [hids]
  constructor
  · intro hk
    obtain ⟨i, hi, rfl⟩ := List.mem_map.mp hk
    exact ⟨i, hitems i hi, hnew.itemOrder i hi⟩
  · rintro ⟨i, hi, hio⟩
    have hm' := mem_of_lookup hi
    rw [hm.after] at hm'
    rcases mem_of_mem_overlay hm' with hw | hb
    · rw [hp.writes_items] at hw
      exact List.mem_map.mpr ⟨i, hw, key_of_lookup hi⟩
    · have hold := hm.ok.itemOrder i hb
      rw [hio, hnew.orderNew] at hold
      cases hold

theorem Event.Made.placed_belongs {h : Holding} (hm : e.Made owner h) {o : Order} {items : List OrderItem}
    (hp : h.Places o items) (hof : channel.Of o.restaurantId o.tableSessionId)
    {published : List PublishedItem} (hids : published.map PublishedItem.id = items.map OrderItem.id)
    {x : Named} (hx : x ∈ (RealtimeEvent.orderCreated o.id o.tableSessionId published).named) :
    e.after.Belongs channel x := by
  have hnew := hp.newOrder hm.valid
  obtain ⟨ho, hitems⟩ := hm.placed hp
  rcases List.mem_cons.mp hx with rfl | hx
  · exact ⟨o, ho, hof⟩
  rcases List.mem_cons.mp hx with rfl | hx
  · obtain ⟨s', hs', hr⟩ := hnew.session
    obtain ⟨s'', hs'', -, hr'⟩ := hm.grows.session hs'
    exact ⟨s'', hs'', by rw [hr', hr]; exact hof⟩
  · obtain ⟨y, hy, rfl⟩ := List.mem_map.mp hx
    have hk : y.id ∈ items.map OrderItem.id := hids ▸ List.mem_map_of_mem hy
    obtain ⟨i, hi, hid⟩ := List.mem_map.mp hk
    refine ⟨i, o, hid ▸ hitems i hi, ?_, ?_⟩
    · rw [hnew.itemOrder i hi]
      exact ho
    · rw [hnew.itemRestaurant i hi]
      exact hof

theorem Event.Made.describes {h : Holding} (hm : e.Made owner h) (ha : h.Announces channel event) :
    event.Describes e.before e.after := by
  have hv := hm.valid
  have hafter := hm.after
  cases h with
  | reopening s =>
    obtain ⟨-, rfl⟩ := ha
    refine ⟨s, s.reopen e.now, hv.1, ?_, hv.2.1, rfl, rfl⟩
    rw [hafter]
    exact lookup_written _ rfl
  | leaving s items kind stage =>
    obtain ⟨s', hs', hrow⟩ := hm.session_left
    obtain ⟨hs, hst, hitems⟩ := hv
    cases kind with
    | close =>
      obtain ⟨-, closedAt, rfl⟩ := ha
      refine ⟨s, s', hs, hs', ?_, by rw [hrow]; rfl, by rw [hrow]; rfl, ?_⟩
      · rcases hst with hst | ⟨hst, -⟩ <;> simp [hst]
      · rw [hrow, ← hitems.servedTotal]
        rfl
    | abandon =>
      obtain ⟨-, rfl⟩ := ha
      have ho : s.status = .opened := hst.resolve_right fun h => by cases h.2
      exact ⟨s, s', hs, hs', ho, by rw [hrow]; rfl, by rw [hrow]; rfl⟩
  | moved i i' s =>
    obtain ⟨hi, hmv, -, -⟩ := hv
    have hi' : lookup i'.id e.after.items = some i' := by
      rw [hafter]
      exact lookup_written _ rfl
    rw [← hmv.id_eq] at hi
    obtain ⟨-, rfl | ⟨cancelledBy, orderId, rfl, hc, hk⟩⟩ := ha
    · exact ⟨i, i', hi, hi', hmv.status_ne, rfl, rfl⟩
    · exact ⟨i, i', hi, hi', hc ▸ hmv.status_ne, hc, hc, hk⟩
  | ordering o items =>
    obtain ⟨-, published, rfl, hne, hids⟩ := ha
    exact hm.placed_describes .ordering hne hids
  | ordered o items s at_ =>
    obtain ⟨-, published, rfl, hne, hids⟩ := ha
    exact hm.placed_describes (.ordered s at_) hne hids
  | calling s c =>
    obtain ⟨-, tableId, status, createdAt, rfl⟩ := ha
    refine ⟨hv.new, c, ?_, hv.tableSessionId⟩
    rw [hafter]
    exact lookup_written _ rfl
  | acking c c' =>
    obtain ⟨-, tableId, status, at_, by_, rfl⟩ := ha
    obtain ⟨hc, at', by', rfl⟩ := hv
    refine ⟨c, c.acknowledge at' by', hc, ?_, rfl, rfl⟩
    rw [hafter]
    exact lookup_written _ rfl
  | _ => exact ha.elim

/-- The rows that the message names belong to its channel once they are committed. -/
theorem Event.Made.belongs {h : Holding} (hm : e.Made owner h) (ht : e.before.Tenanted)
    (ha : h.Announces channel event) {x : Named} (hx : x ∈ event.named) : e.after.Belongs channel x := by
  have hv := hm.valid
  have hafter := hm.after
  have hg := hm.grows
  have session {s : TableSession} (hs : lookup s.id e.before.sessions = some s)
      (hof : channel.Of s.restaurantId s.id) : e.after.Belongs channel (.session s.id) := by
    obtain ⟨s', hs', -, hr⟩ := hg.session hs
    exact ⟨s', hs', hr ▸ hof⟩
  cases h with
  | reopening s =>
    obtain ⟨hof, rfl⟩ := ha
    obtain rfl := List.mem_singleton.mp hx
    exact session hv.1 hof
  | leaving s items kind stage =>
    cases kind with
    | close =>
      obtain ⟨hof, closedAt, rfl⟩ := ha
      obtain rfl := List.mem_singleton.mp hx
      exact session hv.1 hof
    | abandon =>
      obtain ⟨hof, rfl⟩ := ha
      obtain rfl := List.mem_singleton.mp hx
      exact session hv.1 hof
  | moved i i' s =>
    obtain ⟨hi, hmv, hs, hin⟩ := hv
    obtain ⟨hof, hevent⟩ := ha
    have hi' : lookup i'.id e.after.items = some i' := by
      rw [hafter]
      exact lookup_written _ rfl
    obtain ⟨o, ho, hos⟩ := (Data.inSession_iff hm.ok).mp hin
    have ho' : lookup i'.orderId e.after.orders = some o := by
      rw [hmv.orderId_eq]
      exact hg.order ho
    have hr : o.restaurantId = i'.restaurantId := by
      obtain ⟨o', hl, hr⟩ := ht.item hi
      rw [ho] at hl
      cases hl
      rw [hr, hmv.restaurantId_eq]
    have hitem : e.after.Belongs channel (.item i'.id) := ⟨i', o, hi', ho', hos ▸ hof⟩
    have horder : e.after.Belongs channel (.order i'.orderId) := ⟨o, ho', by rw [hr, hos]; exact hof⟩
    rcases hevent with rfl | ⟨cancelledBy, orderId, rfl, -, hk⟩
    · rcases List.mem_cons.mp hx with rfl | hx
      · exact hitem
      · obtain rfl := List.mem_singleton.mp hx
        exact horder
    · rcases List.mem_cons.mp hx with rfl | hx
      · exact hitem
      · obtain ⟨k, hmem, rfl⟩ := List.mem_map.mp hx
        rw [hk k (Option.mem_toList.mp hmem)]
        exact horder
  | ordering o items =>
    obtain ⟨hof, published, rfl, -, hids⟩ := ha
    exact hm.placed_belongs .ordering hof hids hx
  | ordered o items s at_ =>
    obtain ⟨hof, published, rfl, -, hids⟩ := ha
    exact hm.placed_belongs (.ordered s at_) hof hids hx
  | calling s c =>
    obtain ⟨hof, tableId, status, createdAt, rfl⟩ := ha
    have hc : lookup c.id e.after.calls = some c := by
      rw [hafter]
      exact lookup_written _ rfl
    rcases List.mem_cons.mp hx with rfl | hx
    · exact ⟨c, hc, by rw [hv.tableSessionId]; exact hof⟩
    · obtain rfl := List.mem_singleton.mp hx
      exact session hv.session (hv.restaurant ▸ hof)
  | acking c c' =>
    obtain ⟨hof, tableId, status, at_, by_, rfl⟩ := ha
    obtain ⟨hc, at', by', rfl⟩ := hv
    rcases List.mem_cons.mp hx with rfl | hx
    · refine ⟨c.acknowledge at' by', ?_, hof⟩
      rw [hafter]
      exact lookup_written _ rfl
    · obtain rfl := List.mem_singleton.mp hx
      obtain ⟨s, hs, hr⟩ := hm.ok.callSession c (mem_of_lookup hc)
      obtain ⟨s', hs', -, hr'⟩ := hg.session hs
      exact ⟨s', hs', by rw [hr', hr]; exact hof⟩
  | _ => exact ha.elim

end Made

section Runs

variable {n : Nat} {owner : Uuid → Uuid} {req : Fin n → Request} {D : Deployment owner}
  {p : Clients n} {hb post : List (Event n)} {e : Event n} {channel : Channel} {event : RealtimeEvent}

theorem Deployment.Reaches.published (hr : D.Reaches req p) (h₀ : D.data.Tenanted)
    (hh : p.state.history = hb ++ e :: post) (hq : e.stmt = .publish channel event) :
    (∃ e' ∈ hb, e'.client = e.client ∧ e'.isCommit = true ∧ event.Describes e'.before e'.after) ∧
      ∀ x ∈ event.named, e.before.Belongs channel x := by
  have hen := hr.inv.logged hb e post hh
  obtain ⟨l₁, e', l₂, h, hl, -, hm, ha⟩ := hen.told channel event hq
  obtain ⟨b₁, b₂, rfl, -, -⟩ := filter_split hl
  have hclient : e'.client = e.client := by
    have hmem : e' ∈ own e.client (b₁ ++ e' :: b₂) := by
      rw [hl]
      simp
    simpa using (List.mem_filter.mp hmem).2
  have htenanted := (hr.tenanted h₀).1
  refine ⟨⟨e', by simp, hclient, hm.commit, hm.describes ha⟩, fun x hx => ?_⟩
  have hbefore := htenanted e' (by rw [hh]; simp)
  have hb' := hm.belongs hbefore ha hx
  have hg : e'.after.Grows e.before := hr.grows hh
  exact hb'.grows hg hm.after_ok hen.ok (hm.tenanted hbefore) (htenanted e (by rw [hh]; simp))

end Runs

end QOrder
