import QOrder.Runs

/-! What one commit does to each row, by what the committing transaction holds. -/

namespace QOrder

open KeyedTable Concurrency

def Data.statusOf (d : Data) (sessionId : Uuid) : Option SessionStatus :=
  (lookup sessionId d.sessions).map TableSession.status

namespace Holding

open Data

/-- What the commit of a transaction makes of the session `s`. -/
inductive SessionStep (now : Timestamp) (d : Data) (s : TableSession) :
    Holding → TableSession → Prop
  | kept {h : Holding} (hk : lookup s.id (h.writes now d).sessions = none) : SessionStep now d s h s
  | reopened : SessionStep now d s (.reopening s) (s.reopen now)
  | left (items : List OrderItem) (kind : Leave) :
      SessionStep now d s (.leaving s items kind .dismissed) (kind.row now d s .dismissed)
  | moved (i i' : OrderItem) : SessionStep now d s (.moved i i' s) (s.touch now)
  | ordered (o : Order) (items : List OrderItem) (at_ : Timestamp) :
      SessionStep now d s (.ordered o items s at_) (s.touch at_)
  | called (c : StaffCall) : SessionStep now d s (.calling s c) (s.touch now)

/-- What the commit of a transaction makes of the item `i`. -/
inductive ItemStep (now : Timestamp) (d : Data) (i : OrderItem) : Holding → OrderItem → Prop
  | kept (h : Holding) : ItemStep now d i h i
  | moved (s : TableSession) {i' : OrderItem} (hm : i.Move now i')
      (hs : d.inSession s.id i = true) : ItemStep now d i (.moved i i' s) i'
  | cancelled (s : TableSession) (items : List OrderItem) (kind : Leave)
      (hs : d.inSession s.id i = true) (hu : i.isUnserved = true) :
      ItemStep now d i (.leaving s items kind .dismissed) (i.cancel .system now (some kind.reason))

/-- What the commit of a transaction makes of the staff call `c`. -/
inductive CallStep (now : Timestamp) (c : StaffCall) : Holding → StaffCall → Prop
  | kept (h : Holding) : CallStep now c h c
  | acked (c' : StaffCall) : CallStep now c (.acking c c') c'
  | dismissed (s : TableSession) (items : List OrderItem) (kind : Leave)
      (hs : c.tableSessionId = s.id) (hp : c.status = .pending) :
      CallStep now c (.leaving s items kind .dismissed) (c.dismiss now)

variable {owner : Uuid → Uuid} {now : Timestamp} {d : Data} {h : Holding} {k : Uuid}

section

variable (hd : d.Ok owner) (hv : h.Valid owner now d) (hc : h.Complete)

include hv hc

theorem session_step {s : TableSession} (hs : lookup k d.sessions = some s) :
    ∃ s', lookup k (d.overlay (h.writes now d)).sessions = some s' ∧ h.SessionStep now d s s' := by
  have hk : s.id = k := key_of_lookup hs
  have kept {h : Holding} (hl : lookup k (h.writes now d).sessions = none) :
      ∃ s', lookup k (d.overlay (h.writes now d)).sessions = some s' ∧ h.SessionStep now d s s' :=
    ⟨s, by simp [hl, hs], .kept (by rw [hk, hl])⟩
  cases h with
  | opening w =>
    refine kept ?_
    rcases eq_or_ne w.id k with rfl | hne
    · rw [hv.new] at hs
      cases hs
    · simp [writes, lookup_singleton, hne]
  | reopening w =>
    rcases lookup_overlay_one (w := w.reopen now) hv.1 hs with hl | ⟨rfl, hl⟩
    · exact kept hl
    · exact ⟨_, hl, .reopened⟩
  | leaving w items kind stage =>
    cases stage with
    | dismissed =>
      rcases lookup_overlay_one (w := kind.row now d w .dismissed) (by simpa using hv.1) hs
        with hl | ⟨rfl, hl⟩
      · exact kept hl
      · exact ⟨_, hl, .left items kind⟩
    | _ => exact absurd hc (by simp [Complete])
  | moved i i' w =>
    rcases lookup_overlay_one (w := w.touch now) hv.2.2.1 hs with hl | ⟨rfl, hl⟩
    · exact kept hl
    · exact ⟨_, hl, .moved i i'⟩
  | ordered o items w at_ =>
    rcases lookup_overlay_one (w := w.touch at_) hv.2.1 hs with hl | ⟨rfl, hl⟩
    · exact kept hl
    · exact ⟨_, hl, .ordered o items at_⟩
  | calling w c =>
    rcases lookup_overlay_one (w := w.touch now) hv.session hs with hl | ⟨rfl, hl⟩
    · exact kept hl
    · exact ⟨_, hl, .called c⟩
  | ordering o items => exact kept rfl
  | acking c c' => exact kept rfl
  | _ => exact absurd hc (by simp [Complete])

include hd in
theorem item_step {i : OrderItem} (hi : lookup k d.items = some i) :
    ∃ i', lookup k (d.overlay (h.writes now d)).items = some i' ∧ h.ItemStep now d i i' := by
  have kept {h : Holding} (hl : lookup k (d.overlay (h.writes now d)).items = some i) :
      ∃ i', lookup k (d.overlay (h.writes now d)).items = some i' ∧ h.ItemStep now d i i' :=
    ⟨i, hl, .kept h⟩
  have placed {h : Holding} {o : Order} {items : List OrderItem} (hp : h.Places o items)
      (hv : h.Valid owner now d) :
      ∃ i', lookup k (d.overlay (h.writes now d)).items = some i' ∧ h.ItemStep now d i i' := by
    refine kept ?_
    cases hl : lookup k items with
    | none => simp [hp.writes_items, hl, hi]
    | some i' =>
      have hn := (hp.newOrder hv).itemNew i' (mem_of_lookup hl)
      rw [show i'.id = k from key_of_lookup hl, hi] at hn
      cases hn
  cases h with
  | leaving s items kind stage =>
    cases stage with
    | dismissed =>
      cases hl : lookup k (cancelUnserved now kind.reason items) with
      | none => exact kept (by simp [writes, hl, hi])
      | some i' =>
        obtain ⟨i₀, hi₀, hu, rfl⟩ := mem_changed.mp (mem_of_lookup hl)
        obtain ⟨hm, hin⟩ := Data.mem_itemsOf.mp (hv.2.2.subset hi₀)
        have hk : i₀.id = k := key_of_lookup hl
        obtain rfl : i = i₀ := by simpa [hk, hi] using hd.mem_items.mp hm
        exact ⟨_, by simp [writes, hl], .cancelled s items kind hin hu⟩
    | _ => exact absurd hc (by simp [Complete])
  | moved i₀ i' s =>
    rcases lookup_overlay_one (w := i') (by simpa [hv.2.1.id_eq] using hv.1) hi with hl | ⟨rfl, hl⟩
    · exact kept (by simp [writes, hl, hi])
    · exact ⟨_, hl, .moved s hv.2.1 hv.2.2.2⟩
  | ordering o items => exact placed .ordering hv
  | ordered o items s at_ => exact placed (.ordered s at_) hv
  | opening s => exact kept (by simpa [writes] using hi)
  | reopening s => exact kept (by simpa [writes] using hi)
  | calling s c => exact kept (by simpa [writes] using hi)
  | acking c c' => exact kept (by simpa [writes] using hi)
  | _ => exact absurd hc (by simp [Complete])

include hd in
theorem call_step {c : StaffCall} (hs : lookup k d.calls = some c) :
    ∃ c', lookup k (d.overlay (h.writes now d)).calls = some c' ∧ h.CallStep now c c' := by
  have kept {h : Holding} (hl : lookup k (d.overlay (h.writes now d)).calls = some c) :
      ∃ c', lookup k (d.overlay (h.writes now d)).calls = some c' ∧ h.CallStep now c c' :=
    ⟨c, hl, .kept h⟩
  cases h with
  | leaving s items kind stage =>
    cases stage with
    | dismissed =>
      cases hl : lookup k (d.dismissedCalls s.id s.restaurantId now) with
      | none => exact kept (by simp [writes, hl, hs])
      | some c' =>
        obtain ⟨c₀, hc₀, rfl⟩ := mem_dismissedCalls.mp (mem_of_lookup hl)
        obtain ⟨hm, hin, -, hp⟩ := mem_pendingCalls.mp hc₀
        have hk : c₀.id = k := key_of_lookup hl
        obtain rfl : c = c₀ := by simpa [hk, hs] using hd.mem_calls.mp hm
        exact ⟨_, by simp [writes, hl], .dismissed s items kind hin hp⟩
    | _ => exact absurd hc (by simp [Complete])
  | calling s w =>
    refine kept ?_
    rcases eq_or_ne w.id k with rfl | hk
    · rw [hv.new] at hs
      cases hs
    · simp [writes, lookup_singleton, hk, hs]
  | acking c₀ w =>
    obtain ⟨hl, at_, by_, rfl⟩ := hv
    rcases lookup_overlay_one (w := c₀.acknowledge at_ by_) hl hs with hl | ⟨rfl, hl⟩
    · exact kept (by simp [writes, hl, hs])
    · exact ⟨_, hl, .acked _⟩
  | opening s => exact kept (by simpa [writes] using hs)
  | reopening s => exact kept (by simpa [writes] using hs)
  | moved i i' s => exact kept (by simpa [writes] using hs)
  | ordering o items => exact kept (by simpa [writes] using hs)
  | ordered o items s at_ => exact kept (by simpa [writes] using hs)
  | _ => exact absurd hc (by simp [Complete])

end

section New

variable (hd : d.Ok owner) (hv : h.Valid owner now d)

include hd hv

/-- Only an order adds items. -/
theorem item_new {i : OrderItem} (hi : i ∈ (d.overlay (h.writes now d)).items)
    (hn : lookup i.id d.items = none) (hc : h.Complete) : ∃ o items, h.Places o items ∧ i ∈ items := by
  have hm : i ∈ (h.writes now d).items := by
    refine (mem_of_mem_overlay hi).resolve_right fun hm => ?_
    rw [hd.mem_items.mp hm] at hn
    cases hn
  cases h with
  | leaving s items kind stage =>
    simp only [writes] at hm
    split at hm
    · cases hm
    · obtain ⟨i₀, hi₀, -, hmv⟩ := cancelUnserved_move hm
      rw [hmv.id_eq, hd.mem_items.mp (mem_itemsOf.mp (hv.2.2.subset hi₀)).1] at hn
      cases hn
  | moved i₀ i' s =>
    obtain rfl : i = i' := by simpa [writes] using hm
    rw [hv.2.1.id_eq, hv.1] at hn
    cases hn
  | ordering o items => exact ⟨o, items, .ordering, hm⟩
  | ordered o items s at_ => exact ⟨o, items, .ordered s at_, hm⟩
  | opening s => cases hm
  | reopening s => cases hm
  | calling s c => cases hm
  | acking c c' => cases hm
  | _ => exact absurd hc (by simp [Complete])

omit hv in
theorem order_new {o : Order} (ho : o ∈ (d.overlay (h.writes now d)).orders)
    (hn : lookup o.id d.orders = none) : ∃ items, h.Places o items := by
  have hm : o ∈ (h.writes now d).orders := by
    refine (mem_of_mem_overlay ho).resolve_right fun hm => ?_
    rw [hd.mem_orders.mp hm] at hn
    cases hn
  cases h with
  | ordered o' items s at_ =>
    obtain rfl : o = o' := by simpa [writes] using hm
    exact ⟨items, .ordered s at_⟩
  | ordering o' items =>
    obtain rfl : o = o' := by simpa [writes] using hm
    exact ⟨items, .ordering⟩
  | _ => cases hm

theorem call_new {c : StaffCall} (hm : c ∈ (d.overlay (h.writes now d)).calls)
    (hn : lookup c.id d.calls = none) (hc : h.Complete) : ∃ s, h = .calling s c := by
  have hm : c ∈ (h.writes now d).calls := by
    refine (mem_of_mem_overlay hm).resolve_right fun hm => ?_
    rw [hd.mem_calls.mp hm] at hn
    cases hn
  cases h with
  | leaving s items kind stage =>
    simp only [writes] at hm
    split at hm
    · obtain ⟨c₀, hc₀, rfl⟩ := mem_dismissedCalls.mp hm
      rw [show (c₀.dismiss now).id = c₀.id from rfl,
        hd.mem_calls.mp (mem_pendingCalls.mp hc₀).1] at hn
      cases hn
    · cases hm
  | calling s c' =>
    obtain rfl : c = c' := by simpa [writes] using hm
    exact ⟨s, rfl⟩
  | acking c₀ c' =>
    obtain rfl : c = c' := by simpa [writes] using hm
    obtain ⟨hl, at_, by_, rfl⟩ := hv
    rw [show (c₀.acknowledge at_ by_).id = c₀.id from rfl, hl] at hn
    cases hn
  | _ => cases hm

end New

end Holding

section Events

variable {n : Nat} {owner : Uuid → Uuid} {req : Fin n → Request} {hb : List (Event n)} {e : Event n}

theorem Event.not_commit_of_keeps (hk : e.keeps = true) : e.isCommit = false := by
  unfold Event.keeps at hk
  unfold Event.isCommit
  cases hst : e.stmt <;> simp_all

/-- `e` commits what its client holds. -/
structure Committed (owner : Uuid → Uuid) (req : Fin n → Request) (hb : List (Event n)) (e : Event n)
    (h : Holding) : Prop where
  commit : e.isCommit = true
  ok : e.before.Ok owner
  valid : h.Valid owner e.now e.before
  complete : h.Complete
  justified : Justified (own e.client hb) h (req e.client)
  after : e.after = e.before.overlay (h.writes e.now e.before)

theorem Entry.committed (he : Entry owner req hb e) (hc : e.isCommit = true) :
    ∃ h, Committed owner req hb e h := by
  obtain ⟨h, hv, hcm, hj, ha⟩ := he.commit hc
  exact ⟨h, hc, he.ok, hv, hcm, hj, ha⟩

theorem Entry.unchanged_or_committed (he : Entry owner req hb e) :
    e.after = e.before ∨ ∃ h, Committed owner req hb e h := by
  cases hc : e.isCommit with
  | false => exact .inl (he.other hc)
  | true => exact .inr (he.committed hc)

theorem Entry.after_ok (he : Entry owner req hb e) : e.after.Ok owner := by
  rcases he.unchanged_or_committed with ha | ⟨h, hc⟩
  · rw [ha]
    exact he.ok
  · rw [hc.after]
    exact h.commit_ok hc.ok hc.valid hc.complete

variable {h : Holding} (hc : Committed owner req hb e h)

include hc

theorem Committed.session {k : Uuid} {s : TableSession} (hs : lookup k e.before.sessions = some s) :
    ∃ s', lookup k e.after.sessions = some s' ∧ h.SessionStep e.now e.before s s' := by
  rw [hc.after]
  exact Holding.session_step hc.valid hc.complete hs

theorem Committed.item {k : Uuid} {i : OrderItem} (hi : lookup k e.before.items = some i) :
    ∃ i', lookup k e.after.items = some i' ∧ h.ItemStep e.now e.before i i' := by
  rw [hc.after]
  exact Holding.item_step hc.ok hc.valid hc.complete hi

end Events

section Runs

variable {n : Nat} {owner : Uuid → Uuid} {req : Fin n → Request} {D : Deployment owner}
  {p p' : Clients n}

theorem exec_event {t : Fin n} {q : Stmt} {σ σ' : Sys n} {r : Except DbError q.Resp}
    (hx : Exec t q σ r σ') : ∃ e : Event n, σ'.history = σ.history ++ [e] ∧ e.before = σ.data ∧
      e.after = σ'.data ∧ e.client = t ∧ e.stmt = q := by
  cases hx with
  | kill hq => exact ⟨σ.event t q (.error .operational) σ.data, rfl, rfl, rfl, rfl, rfl⟩
  | perform hb => exact ⟨σ.event t q (σ.answer t q).1 (σ.answer t q).2.data, rfl, rfl, rfl, rfl, rfl⟩

/-- A step either leaves data and history alone or adds the event that accounts for it. -/
theorem step_event (hs : (machine owner n).Step p p') :
    (p'.state.data = p.state.data ∧ p'.state.history = p.state.history) ∨
      ∃ e : Event n, p'.state.history = p.state.history ++ [e] ∧ e.before = p.state.data ∧
        e.after = p'.state.data := by
  cases hs with
  | env he => cases he <;> exact .inl ⟨rfl, rfl⟩
  | exec hp hx =>
    obtain ⟨e, hh, hb, ha, -⟩ := exec_event hx
    exact .inr ⟨e, hh, hb, ha⟩

/-- The events of a run that executes statements only where `C` allows it. -/
theorem restricted_events {C : Fin n → Stmt → Sys n → Prop} {P : List (Event n) → Event n → Prop}
    (hC : ∀ t q σ r σ' e, C t q σ → Exec t q σ r σ' → σ'.history = σ.history ++ [e] → P σ.history e)
    (hr : ((machine owner n).restrict C).Reachable (D.start req) p) : Logged P p.state.history := by
  induction hr with
  | refl => exact Logged.nil
  | tail _ hs ih =>
    cases hs with
    | env he => cases he <;> exact ih
    | exec hp hx =>
      obtain ⟨e, hh, -⟩ := exec_event hx.2
      rw [hh]
      exact ih.snoc (hC _ _ _ _ _ e hx.1 hx.2 hh)

theorem Deployment.Reaches.step (hr : D.Reaches req p) (hs : (machine owner n).Step p p') :
    p'.state.data = p.state.data ∨ ∃ e h, Committed owner req p.state.history e h ∧
      e.before = p.state.data ∧ e.after = p'.state.data := by
  rcases step_event hs with ⟨hd, -⟩ | ⟨e, hh, hb, ha⟩
  · exact .inl hd
  · have hr' : D.Reaches req p' := hr.tail hs
    rcases (hr'.inv.logged _ e [] hh).unchanged_or_committed with hn | ⟨h, hc⟩
    · exact .inl (by rw [← ha, hn, hb])
    · exact .inr ⟨e, h, hc, hb, ha⟩

end Runs

end QOrder
