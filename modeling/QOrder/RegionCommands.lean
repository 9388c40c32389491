import QOrder.RegionStatements

/-! The rows a command writes, and the constraint it violates, are told by the region it
keeps to; and the rows are of that region. -/

namespace QOrder

open KeyedTable

variable {ζ : Type} {m : Atlas ζ} {z : ζ} {ctx : Ctx} {d : Data} {k rid : Uuid}

namespace Data

/-- An update of sessions of the region. -/
theorem Placed.changed_sessions (hd : d.Placed m) {p : TableSession → Bool}
    {f : TableSession → TableSession} (hp : ∀ s ∈ d.sessions, p s = true → m.session s.id = z)
    (hf : ∀ s, (f s).id = s.id ∧ (f s).tableId = s.tableId ∧ (f s).restaurantId = s.restaurantId) :
    Inside m z { sessions := changed p f d.sessions } := by
  have hs : ∀ w ∈ changed p f d.sessions, m.session w.id = z ∧ m.table w.tableId = m.session w.id ∧
      m.Near w.restaurantId (m.session w.id) := by
    intro w hw
    obtain ⟨s, hs, hps, rfl⟩ := mem_changed.mp hw
    obtain ⟨hid, ht, hr⟩ := hf s
    rw [hid, ht, hr]
    exact ⟨hp s hs hps, hd.session s hs⟩
  exact { inside_empty with
    placed := { placed_empty with session := fun w hw => (hs w hw).2 }
    session := fun w hw => (hs w hw).1 }

theorem Placed.changed_items (hd : d.Placed m) {p : OrderItem → Bool} {f : OrderItem → OrderItem}
    {rows : List OrderItem} (hrows : ∀ i ∈ rows, i ∈ d.items)
    (hp : ∀ i ∈ rows, p i = true → m.item i.id = z)
    (hf : ∀ i, (f i).id = i.id ∧ (f i).orderId = i.orderId ∧ (f i).restaurantId = i.restaurantId ∧
      (f i).menuItemId = i.menuItemId) :
    Inside m z { items := changed p f rows } := by
  have hi : ∀ w ∈ changed p f rows, m.item w.id = z ∧ m.order w.orderId = m.item w.id ∧
      m.Near w.restaurantId (m.item w.id) ∧ m.dish w.menuItemId w.restaurantId := by
    intro w hw
    obtain ⟨i, hi, hpi, rfl⟩ := mem_changed.mp hw
    obtain ⟨hid, ho, hr, hm⟩ := hf i
    rw [hid, ho, hr, hm]
    exact ⟨hp i hi hpi, hd.item i (hrows i hi)⟩
  exact { inside_empty with
    placed := { placed_empty with item := fun w hw => (hi w hw).2 }
    item := fun w hw => (hi w hw).1 }

theorem Placed.changed_calls (hd : d.Placed m) {p : StaffCall → Bool} {f : StaffCall → StaffCall}
    (hp : ∀ x ∈ d.calls, p x = true → m.call x.id = z)
    (hf : ∀ x, (f x).id = x.id ∧ (f x).tableId = x.tableId ∧ (f x).tableSessionId = x.tableSessionId ∧
      (f x).restaurantId = x.restaurantId) : Inside m z { calls := changed p f d.calls } := by
  have hc : ∀ w ∈ changed p f d.calls, m.call w.id = z ∧ m.session w.tableSessionId = m.call w.id ∧
      m.table w.tableId = m.call w.id ∧ m.Near w.restaurantId (m.call w.id) := by
    intro w hw
    obtain ⟨x, hx, hpx, rfl⟩ := mem_changed.mp hw
    obtain ⟨hid, ht, hs, hr⟩ := hf x
    rw [hid, ht, hs, hr]
    exact ⟨hp x hx hpx, hd.call x hx⟩
  exact { inside_empty with
    placed := { placed_empty with call := fun w hw => (hc w hw).2 }
    call := fun w hw => (hc w hw).1 }

end Data

theorem Data.Placed.matches_item (hd : d.Placed m) (hh : m.Held (m.item k) rid z) {i : OrderItem}
    (hi : i ∈ d.items) {allowed : List OrderItemStatus} (h : i.matchesId k rid allowed = true) :
    m.item i.id = z := by
  simp only [OrderItem.matchesId, Bool.and_eq_true, beq_iff_eq] at h
  exact hd.held_item hi (h.1.1 ▸ h.1.2 ▸ hh)

theorem session_matches (hk : m.session k = z) {s : TableSession} {status : SessionStatus}
    (h : s.matchesId k rid status = true) : m.session s.id = z := by
  simp only [TableSession.matchesId, Bool.and_eq_true, beq_iff_eq] at h
  rw [h.1.1, hk]

theorem session_id (hk : m.session k = z) {s : TableSession} (h : (s.id == k) = true) :
    m.session s.id = z := by
  rw [beq_iff_eq.mp h, hk]

/-- The session of an order of the region. -/
theorem Data.Placed.session_of_order (hd : d.Placed m) (hk : m.order k = z) {s : TableSession}
    (h : ((lookup k d.orders).any fun o => o.tableSessionId == s.id) = true) : m.session s.id = z := by
  obtain ⟨o, ho, hs⟩ := (Option.any_eq_true _ _).mp h
  rw [← beq_iff_eq.mp hs, (hd.order o (mem_of_lookup ho)).1, show o.id = k from key_of_lookup ho, hk]

theorem Data.Placed.pending_call (hd : d.Placed m) (hk : m.session k = z) {x : StaffCall}
    (hx : x ∈ d.calls)
    (h : (x.tableSessionId == k && x.restaurantId == rid && x.status == .pending) = true) :
    m.call x.id = z := by
  simp only [Bool.and_eq_true, beq_iff_eq] at h
  rw [← (hd.call x hx).1, h.1.1, hk]

/-- The rows a command of the region writes are of the region. -/
theorem Command.rows_inside {c : Command} (hc : c.Within m z) (hd : d.Placed m)
    (hn : ∀ id, ctx.nextUuid ≤ id → id < ctx.nextUuid + c.generated → m.Free id z) :
    (c.rows ctx d).Inside m z := by
  have hnew (h : c.generated = 1) : m.Free ctx.nextUuid z :=
    hn _ le_rfl (by rw [h]; exact Nat.lt_succ_self _)
  cases c with
  | insertSession rid tableId openedBy =>
    have hs : m.session ctx.nextUuid = z := (hnew rfl).1
    refine { Data.inside_empty with placed := { Data.placed_empty with session := ?_ }, session := ?_ }
    · intro s h
      rw [List.mem_singleton.mp h, hs]
      exact hc
    · intro s h
      rw [List.mem_singleton.mp h, hs]
  | closeSession k rid | reopenSession k rid | closeAbandoned k rid =>
    exact hd.changed_sessions (fun s _ h => session_matches hc h) fun s => ⟨rfl, rfl, rfl⟩
  | abandonSession k =>
    have hp : ∀ s ∈ d.sessions, (s.id == k && s.status == .opened) = true → m.session s.id = z := by
      intro s _ h
      exact session_id hc (Bool.and_eq_true_iff.mp h).1
    exact hd.changed_sessions hp fun s => ⟨rfl, rfl, rfl⟩
  | setTotal k total | touchSession k | setLastActivity k at_ =>
    exact hd.changed_sessions (fun s _ h => session_id hc h) fun s => ⟨rfl, rfl, rfl⟩
  | cancelUnserved k reason =>
    refine hd.changed_items (fun i hi => (List.mem_filter.mp hi).1) (fun i hi _ => ?_)
      fun i => ⟨rfl, rfl, rfl, rfl⟩
    obtain ⟨hi, hs⟩ := List.mem_filter.mp hi
    rw [hd.item_of_inSession hi hs, hc]
  | dismissPending k rid =>
    exact hd.changed_calls (fun x hx h => hd.pending_call hc hx h) fun x => ⟨rfl, rfl, rfl, rfl⟩
  | undoItem toStatus k rid allowed =>
    refine hd.changed_items (fun i hi => hi) (fun i hi h => ?_) fun i => ⟨rfl, rfl, rfl, rfl⟩
    exact hd.matches_item hc hi (Bool.and_eq_true_iff.mp h).1
  | serveItem toStatus actor k rid allowed | advanceItem toStatus k rid allowed
  | cancelItem by_ reason k rid allowed =>
    exact hd.changed_items (fun i hi => hi) (fun i hi h => hd.matches_item hc hi h)
      fun i => ⟨rfl, rfl, rfl, rfl⟩
  | touchSessionOfOrder k =>
    exact hd.changed_sessions (fun s _ h => hd.session_of_order hc h) fun s => ⟨rfl, rfl, rfl⟩
  | insertOrder rid k =>
    have ho : m.order ctx.nextUuid = z := (hnew rfl).2.1
    refine { Data.inside_empty with placed := { Data.placed_empty with order := ?_ }, order := ?_ }
    · intro o h
      rw [List.mem_singleton.mp h, ho]
      exact hc
    · intro o h
      rw [List.mem_singleton.mp h, ho]
  | insertItems rows =>
    have hi : ∀ i ∈ rows.mapIdx fun j n => n.row (ctx.nextUuid + j),
        m.item i.id = z ∧ m.order i.orderId = z ∧ m.Near i.restaurantId z ∧
          m.dish i.menuItemId i.restaurantId := by
      intro i h
      obtain ⟨j, hj, rfl⟩ := List.mem_mapIdx.mp h
      have hfree := hn (ctx.nextUuid + j) (Nat.le_add_right ..) (Nat.add_lt_add_left hj _)
      exact ⟨hfree.2.2.1, hc _ (List.getElem_mem hj)⟩
    refine { Data.inside_empty with
      placed := { Data.placed_empty with item := fun i h => ?_ }, item := fun i h => (hi i h).1 }
    rw [(hi i h).1]
    exact (hi i h).2
  | insertCall rid tableId k =>
    have hx : m.call ctx.nextUuid = z := (hnew rfl).2.2.2
    refine { Data.inside_empty with placed := { Data.placed_empty with call := ?_ }, call := ?_ }
    · intro x h
      rw [List.mem_singleton.mp h, hx]
      exact ⟨hc.2.1, hc.1, hc.2.2⟩
    · intro x h
      rw [List.mem_singleton.mp h, hx]
  | acknowledgeCall k at_ by_ =>
    refine hd.changed_calls (fun x _ h => ?_) fun x => ⟨rfl, rfl, rfl, rfl⟩
    rw [beq_iff_eq.mp h]
    exact hc

/-- The tables whose index entry a command adds. -/
theorem Command.indexEntries_within {c : Command} (hc : c.Within m z) (hd : d.Placed m) :
    ∀ e ∈ c.indexEntries ctx d, m.table e.1 = z := by
  intro e he
  cases c with
  | insertSession rid tableId openedBy =>
    rw [List.mem_singleton.mp he]
    exact hc.1
  | reopenSession k rid =>
    obtain ⟨w, hw, rfl⟩ := List.mem_map.mp he
    obtain ⟨s, hs, hm, rfl⟩ := mem_changed.mp hw
    exact (hd.session s hs).1.trans (session_matches hc hm)
  | _ => cases he

section Part

variable [DecidableEq ζ]

theorem Data.changed_sessions_part {p : TableSession → Bool} {f : TableSession → TableSession}
    (hp : ∀ s ∈ d.sessions, p s = true → m.session s.id = z) :
    changed p f (d.part m z).sessions = changed p f d.sessions :=
  changed_part (p := fun k => m.session k = z) fun s hs h => decide_eq_true (hp s hs h)

theorem Data.changed_items_part {p : OrderItem → Bool} {f : OrderItem → OrderItem}
    (hp : ∀ i ∈ d.items, p i = true → m.item i.id = z) :
    changed p f (d.part m z).items = changed p f d.items :=
  changed_part (p := fun k => m.item k = z) fun i hi h => decide_eq_true (hp i hi h)

theorem Data.changed_calls_part {p : StaffCall → Bool} {f : StaffCall → StaffCall}
    (hp : ∀ x ∈ d.calls, p x = true → m.call x.id = z) :
    changed p f (d.part m z).calls = changed p f d.calls :=
  changed_part (p := fun k => m.call k = z) fun x hx h => decide_eq_true (hp x hx h)

/-- The rows a command of the region writes depend on the region only. -/
theorem Command.rows_part {c : Command} (hc : c.Within m z) (hd : d.Placed m) :
    c.rows ctx (d.part m z) = c.rows ctx d := by
  have sessions {p : TableSession → Bool} {f : TableSession → TableSession}
      (hp : ∀ s ∈ d.sessions, p s = true → m.session s.id = z) :
      ({ sessions := changed p f (d.part m z).sessions } : Data) = { sessions := changed p f d.sessions } := by
    rw [Data.changed_sessions_part hp]
  have items {p : OrderItem → Bool} {f : OrderItem → OrderItem}
      (hp : ∀ i ∈ d.items, p i = true → m.item i.id = z) :
      ({ items := changed p f (d.part m z).items } : Data) = { items := changed p f d.items } := by
    rw [Data.changed_items_part hp]
  have calls {p : StaffCall → Bool} {f : StaffCall → StaffCall}
      (hp : ∀ x ∈ d.calls, p x = true → m.call x.id = z) :
      ({ calls := changed p f (d.part m z).calls } : Data) = { calls := changed p f d.calls } := by
    rw [Data.changed_calls_part hp]
  cases c with
  | closeSession k rid | reopenSession k rid | closeAbandoned k rid =>
    exact sessions fun s _ h => session_matches hc h
  | abandonSession k => exact sessions fun s _ h => session_id hc (Bool.and_eq_true_iff.mp h).1
  | setTotal k total | touchSession k | setLastActivity k at_ =>
    exact sessions fun s _ h => session_id hc h
  | cancelUnserved k reason =>
    simp only [rows, Data.cancelledItems, Data.itemsOf_part hd hc]
  | dismissPending k rid => exact calls fun x hx h => hd.pending_call hc hx h
  | undoItem toStatus k rid allowed =>
    exact items fun i hi h => hd.matches_item hc hi (Bool.and_eq_true_iff.mp h).1
  | serveItem toStatus actor k rid allowed | advanceItem toStatus k rid allowed
  | cancelItem by_ reason k rid allowed => exact items fun i hi h => hd.matches_item hc hi h
  | touchSessionOfOrder k =>
    simp only [rows, Data.lookup_orders_part hc]
    exact sessions fun s _ h => hd.session_of_order hc h
  | acknowledgeCall k at_ by_ =>
    refine calls fun x _ h => ?_
    rw [beq_iff_eq.mp h]
    exact hc
  | insertSession rid tableId openedBy | insertOrder rid k | insertItems rows
  | insertCall rid tableId k => rfl

theorem Command.violation_part {c : Command} (hc : c.Within m z) (hd : d.Placed m) :
    c.violation ctx (d.part m z) = c.violation ctx d := by
  have hrows : c.rows ctx (d.part m z) = c.rows ctx d := Command.rows_part hc hd
  have hindex : c.indexEntries ctx (d.part m z) = c.indexEntries ctx d := by
    cases c with
    | reopenSession k rid => exact congrArg (fun w : Data => w.sessions.map fun s => (s.tableId, s.id)) hrows
    | _ => rfl
  have hentry : ∀ e ∈ c.indexEntries ctx d,
      ((d.part m z).sessions.any fun s => s.tableId == e.1 && s.status == .opened && s.id != e.2) =
        d.sessions.any fun s => s.tableId == e.1 && s.status == .opened && s.id != e.2 := by
    intro e he
    have hp : ∀ s ∈ d.sessions, (s.tableId == e.1 && s.status == .opened && s.id != e.2) = true →
        decide (m.session (key s) = z) = true := by
      intro s hs h
      simp only [Bool.and_eq_true, beq_iff_eq] at h
      rw [decide_eq_true_iff, key_session, ← (hd.session s hs).1, h.1.1]
      exact Command.indexEntries_within hc hd e he
    exact any_part (p := fun k => m.session k = z) hp
  have hany : ((c.indexEntries ctx d).any fun e => (d.part m z).sessions.any fun s =>
        s.tableId == e.1 && s.status == .opened && s.id != e.2) =
      (c.indexEntries ctx d).any fun e => d.sessions.any fun s =>
        s.tableId == e.1 && s.status == .opened && s.id != e.2 := by
    rw [Bool.eq_iff_iff, List.any_eq_true, List.any_eq_true]
    exact exists_congr fun e => and_congr_right fun he => by rw [hentry e he]
  simp only [violation, hindex, hany]
  split
  · rfl
  · cases c with
    | setLastActivity k at_ | acknowledgeCall k at_ by_ => simp only [hrows]
    | _ => rfl

end Part

end QOrder
