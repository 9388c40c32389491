import QOrder.Serial

/-! The restaurant columns agree along the chain from an item to its order and its session,
and so do those of the rows a message names. -/

namespace QOrder

open KeyedTable Concurrency

structure Data.Tenanted (d : Data) : Prop where
  order : ∀ {k o}, lookup k d.orders = some o →
    ∃ s, lookup o.tableSessionId d.sessions = some s ∧ s.restaurantId = o.restaurantId
  item : ∀ {k i}, lookup k d.items = some i →
    ∃ o, lookup i.orderId d.orders = some o ∧ o.restaurantId = i.restaurantId

theorem Data.tenanted_empty : Data.Tenanted {} where
  order h := by cases h
  item h := by cases h

section Commits

variable {n : Nat} {owner : Uuid → Uuid} {req : Fin n → Request} {D : Deployment owner}
  {p : Clients n} {hb post : List (Event n)} {e : Event n} {h : Holding}

theorem Holding.ItemStep.orderId_eq {now : Timestamp} {d : Data} {i i' : OrderItem}
    (h' : h.ItemStep now d i i') : i'.orderId = i.orderId := by
  cases h' with
  | kept => rfl
  | moved s hm => exact hm.orderId_eq
  | cancelled => rfl

theorem Holding.ItemStep.restaurantId_eq {now : Timestamp} {d : Data} {i i' : OrderItem}
    (h' : h.ItemStep now d i i') : i'.restaurantId = i.restaurantId := by
  cases h' with
  | kept => rfl
  | moved s hm => exact hm.restaurantId_eq
  | cancelled => rfl

theorem Committed.made (hc : Committed owner req hb e h) : e.Made owner h :=
  ⟨hc.commit, hc.ok, hc.valid, hc.complete, hc.after⟩

theorem Event.Made.grows (hc : e.Made owner h) : e.before.Grows e.after := by
  have hfits := Holding.fits hc.ok hc.valid hc.complete
  rw [hc.after]
  exact hfits.grows hc.ok

theorem Event.Made.after_ok (hc : e.Made owner h) : e.after.Ok owner := by
  rw [hc.after]
  exact h.commit_ok hc.ok hc.valid hc.complete

/-- An order that a commit adds comes with its items, all of one restaurant. -/
theorem Event.Made.tenanted (hc : e.Made owner h) (ht : e.before.Tenanted) : e.after.Tenanted where
  order {k o} ho := by
    have hk : o.id = k := key_of_lookup ho
    have hsession : ∃ s, lookup o.tableSessionId e.before.sessions = some s ∧
        s.restaurantId = o.restaurantId := by
      cases hb : lookup k e.before.orders with
      | some o' =>
        have he := hc.grows.order hb
        rw [ho] at he
        cases he
        exact ht.order hb
      | none =>
        have hm := mem_of_lookup ho
        rw [hc.after] at hm
        rw [← hk] at hb
        obtain ⟨items, hp⟩ := Holding.order_new hc.ok hm hb
        exact (hp.newOrder hc.valid).session
    obtain ⟨s, hs, hr⟩ := hsession
    obtain ⟨s', hs', -, hr'⟩ := hc.grows.session hs
    exact ⟨s', hs', hr'.trans hr⟩
  item {k i} hi := by
    have hk : i.id = k := key_of_lookup hi
    cases hb : lookup k e.before.items with
    | some i₀ =>
      obtain ⟨i', hi', hstep⟩ := Holding.item_step hc.ok hc.valid hc.complete hb
      rw [← hc.after, hi] at hi'
      cases hi'
      obtain ⟨o, ho, hr⟩ := ht.item hb
      rw [hstep.orderId_eq, hstep.restaurantId_eq]
      exact ⟨o, hc.grows.order ho, hr⟩
    | none =>
      have hm := mem_of_lookup hi
      rw [hc.after] at hm
      rw [← hk] at hb
      obtain ⟨o, items, hp, hmem⟩ := Holding.item_new hc.ok hc.valid hm hb hc.complete
      have hnew := hp.newOrder hc.valid
      refine ⟨o, ?_, (hnew.itemRestaurant i hmem).symm⟩
      rw [hc.after, hnew.itemOrder i hmem]
      simp [hp.writes_orders, lookup_singleton]

theorem Deployment.Reaches.tenanted (hr : D.Reaches req p) (h₀ : D.data.Tenanted) :
    (∀ e ∈ p.state.history, e.before.Tenanted) ∧ p.state.data.Tenanted :=
  hr.preserved h₀ fun _ _ _ _ _ hc ht => hc.made.tenanted ht

/-- What an event leaves behind has only grown when a later event finds it. -/
theorem Deployment.Reaches.grows (hr : D.Reaches req p) {l m : List (Event n)} {x : Event n}
    (hh : p.state.history = l ++ x :: m ++ e :: post) : x.after.Grows e.before := by
  have hf := hr.inv.follows
  rw [hh, List.append_assoc] at hf
  have hlater := hf.split.2
  obtain ⟨d, hm, he, -⟩ := follows_append.mp hlater
  rw [← he] at hm
  refine hm.rel Data.Grows.refl (fun hab hbc => hab.trans hbc) fun y hy => ?_
  obtain ⟨hb', -, hen⟩ := hr.entry (e := y) (by rw [hh]; simp [hy])
  exact hen.grows

end Commits

section Belongs

/-- A row that a message names. -/
inductive Named
  | session (id : Uuid)
  | order (id : Uuid)
  | item (id : Uuid)
  | call (id : Uuid)

def RealtimeEvent.named : RealtimeEvent → List Named
  | orderCreated orderId tableSessionId items =>
    .order orderId :: .session tableSessionId :: items.map fun i => .item i.id
  | itemUpdated itemId _ orderId => [.item itemId, .order orderId]
  | itemCancelled itemId _ _ orderId => .item itemId :: orderId.toList.map .order
  | staffCallNew callId _ tableSessionId _ _ => [.call callId, .session tableSessionId]
  | staffCallAck callId _ tableSessionId _ _ _ => [.call callId, .session tableSessionId]
  | sessionClosed sessionId _ _ _ => [.session sessionId]
  | sessionAbandoned sessionId _ => [.session sessionId]
  | sessionRestored sessionId _ => [.session sessionId]

/-- The row belongs to the restaurant of the channel, and to its session if it has one. -/
def Data.Belongs (d : Data) (channel : Channel) : Named → Prop
  | .session k => ∃ s, lookup k d.sessions = some s ∧ channel.Of s.restaurantId k
  | .order k => ∃ o, lookup k d.orders = some o ∧ channel.Of o.restaurantId o.tableSessionId
  | .item k => ∃ i o, lookup k d.items = some i ∧ lookup i.orderId d.orders = some o ∧
      channel.Of i.restaurantId o.tableSessionId
  | .call k => ∃ c, lookup k d.calls = some c ∧ channel.Of c.restaurantId c.tableSessionId

variable {owner : Uuid → Uuid} {d d' : Data} {channel : Channel} {x : Named}

theorem Data.Belongs.grows (h : d.Belongs channel x) (hg : d.Grows d') (hd : d.Ok owner)
    (hd' : d'.Ok owner) (ht : d.Tenanted) (ht' : d'.Tenanted) : d'.Belongs channel x := by
  cases x with
  | session k =>
    obtain ⟨s, hs, hof⟩ := h
    obtain ⟨s', hs', -, hr⟩ := hg.session hs
    exact ⟨s', hs', hr ▸ hof⟩
  | order k =>
    obtain ⟨o, ho, hof⟩ := h
    exact ⟨o, hg.order ho, hof⟩
  | item k =>
    obtain ⟨i, o, hi, ho, hof⟩ := h
    obtain ⟨i', hi', hio⟩ := hg.item hi
    have ho' := hg.order ho
    have hr : i'.restaurantId = i.restaurantId := by
      obtain ⟨o₁, ho₁, hr₁⟩ := ht.item hi
      obtain ⟨o₂, ho₂, hr₂⟩ := ht'.item hi'
      rw [ho] at ho₁
      rw [hio, ho'] at ho₂
      cases ho₁
      cases ho₂
      rw [← hr₁, hr₂]
    refine ⟨i', o, hi', ?_, hr ▸ hof⟩
    rw [hio]
    exact ho'
  | call k =>
    obtain ⟨c, hc, hof⟩ := h
    obtain ⟨c', hc', hk⟩ := hg.call hc
    have hr := hg.call_restaurant hd hd' (mem_of_lookup hc) (mem_of_lookup hc') hk
    exact ⟨c', hc', by rwa [hr, hk]⟩

end Belongs

end QOrder
