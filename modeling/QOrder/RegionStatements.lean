import QOrder.Atlas

/-! The statements that keep to a region, what they answer and which rows they write. -/

namespace QOrder

open KeyedTable

variable {ζ : Type} {m : Atlas ζ} {z : ζ} {ctx : Ctx} {c : Catalog} {d : Data}

/-- The ids a query names are of the region. -/
def Query.Within (m : Atlas ζ) (z : ζ) : Query → Prop
  | tableByToken qrToken => m.token qrToken z
  | tableOf tableId rid => m.Held (m.table tableId) rid z
  | activeRestaurant rid | menuItem _ rid | cooldown rid => m.Near rid z
  | openSessions tableId | recentCall tableId _ => m.table tableId = z
  | sessionById k | itemsOfSession k | unservedItems k | servedTotal k | itemInSession _ k _ =>
    m.session k = z
  | sessionOf k rid => m.Held (m.session k) rid z
  | itemExists k rid => m.Held (m.item k) rid z
  | orderById k => m.order k = z
  | itemById k => m.item k = z
  | callOf k rid => m.Held (m.call k) rid z
  | callById k => m.call k = z
  | staleSessions => False

/-- The ids a command names are of the region. -/
def Command.Within (m : Atlas ζ) (z : ζ) : Command → Prop
  | insertSession rid tableId _ => m.table tableId = z ∧ m.Near rid z
  | closeSession k _ | abandonSession k | reopenSession k _ | closeAbandoned k _ | setTotal k _
  | cancelUnserved k _ | dismissPending k _ | touchSession k | setLastActivity k _ => m.session k = z
  | undoItem _ k rid _ | serveItem _ _ k rid _ | advanceItem _ k rid _ | cancelItem _ _ k rid _ =>
    m.Held (m.item k) rid z
  | touchSessionOfOrder k => m.order k = z
  | insertOrder rid k => m.session k = z ∧ m.Near rid z
  | insertItems rows => ∀ n ∈ rows, m.order n.orderId = z ∧ m.Near n.restaurantId z ∧
    m.dish n.menuItemId n.restaurantId
  | insertCall rid tableId k => m.table tableId = z ∧ m.session k = z ∧ m.Near rid z
  | acknowledgeCall k _ _ => m.call k = z

def Stmt.Within (m : Atlas ζ) (z : ζ) : Stmt → Prop
  | query q => q.Within m z
  | command c => c.Within m z
  | _ => True

/-- A session of the region. -/
def TableSession.Of (s : TableSession) (m : Atlas ζ) (z : ζ) : Prop :=
  m.session s.id = z ∧ m.table s.tableId = z

/-- The rows a query finds are of the region. -/
def Query.Answers (m : Atlas ζ) (z : ζ) : (q : Query) → q.Resp → Prop
  | tableByToken _, a => ∀ t ∈ a, m.table t.id = z ∧ m.Near t.restaurantId z
  | tableOf _ _, a => ∀ t ∈ a, m.table t.id = z
  | activeRestaurant rid, a => ∀ r ∈ a, r.id = rid
  | openSessions _, a => ∀ s ∈ a, s.Of m z
  | sessionById k, a | sessionOf k _, a => ∀ s ∈ a, s.id = k ∧ s.Of m z
  | menuItem _ rid, a => ∀ x ∈ a, m.dish x.id rid
  | itemExists k _, a | itemInSession k _ _, a => a = true → m.item k = z
  | callOf k _, a => a.isSome → m.call k = z
  | _, _ => True

def Stmt.Answers (m : Atlas ζ) (z : ζ) : (q : Stmt) → Except DbError q.Resp → Prop
  | query q, .ok a => q.Answers m z a
  | command _, .ok rows => rows.Inside m z
  | _, _ => True

section Finds

variable {k rid : Uuid}

theorem Data.Placed.lookup_session (hd : d.Placed m) {s : TableSession}
    (hs : lookup k d.sessions = some s) (hk : m.session k = z) : s.id = k ∧ s.Of m z := by
  have hid : s.id = k := key_of_lookup hs
  have hp := (hd.session s (mem_of_lookup hs)).1
  exact ⟨hid, hid ▸ hk, by rw [hp, hid, hk]⟩

theorem Data.Placed.held_session (hd : d.Placed m) {s : TableSession} (hs : s ∈ d.sessions)
    (hh : m.Held (m.session s.id) s.restaurantId z) : m.session s.id = z :=
  hh.near (hd.session s hs).2

theorem Data.Placed.held_item (hd : d.Placed m) {i : OrderItem} (hi : i ∈ d.items)
    (hh : m.Held (m.item i.id) i.restaurantId z) : m.item i.id = z :=
  hh.near (hd.item i hi).2.1

theorem Data.Placed.held_call (hd : d.Placed m) {x : StaffCall} (hx : x ∈ d.calls)
    (hh : m.Held (m.call x.id) x.restaurantId z) : m.call x.id = z :=
  hh.near (hd.call x hx).2.2

theorem Query.eval_answers {q : Query} (hq : q.Within m z) (hd : d.Placed m) (hc : c.Charted m z) :
    q.Answers m z (q.eval ctx c d) := by
  cases q with
  | tableByToken qrToken => exact fun t ht => hc.token hq ht
  | tableOf tableId rid =>
    intro t ht
    have hf := List.find?_some ht
    simp only [Bool.and_eq_true, beq_iff_eq] at hf
    have hn := hc.table t (List.mem_of_find?_eq_some ht)
    rw [hf.1, hf.2] at hn
    rw [hf.1]
    exact hq.near hn
  | activeRestaurant rid =>
    intro r hr
    have hf := List.find?_some hr
    simp only [Bool.and_eq_true, beq_iff_eq] at hf
    exact hf.1
  | openSessions tableId =>
    intro s hs
    obtain ⟨hs, hf⟩ := List.mem_filter.mp hs
    simp only [Bool.and_eq_true, beq_iff_eq] at hf
    have ht : m.table s.tableId = z := by rw [hf.1, hq]
    exact ⟨(hd.session s hs).1.symm.trans ht, ht⟩
  | sessionById k => exact fun s hs => hd.lookup_session hs hq
  | sessionOf k rid =>
    intro s hs
    obtain ⟨hl, hr⟩ := Option.filter_eq_some_iff.mp hs
    simp only [beq_iff_eq] at hr
    have hid : s.id = k := key_of_lookup hl
    have hk := hd.held_session (mem_of_lookup hl) (hid ▸ hr ▸ hq)
    exact hd.lookup_session hl (hid ▸ hk)
  | menuItem k rid =>
    intro x hx
    have hf := List.find?_some hx
    simp only [Bool.and_eq_true, beq_iff_eq] at hf
    rw [← hf.1.2]
    exact hc.menuItem x (List.mem_of_find?_eq_some hx)
  | itemExists k rid =>
    intro h
    obtain ⟨i, hi, hf⟩ := List.any_eq_true.mp h
    simp only [Bool.and_eq_true, beq_iff_eq] at hf
    rw [← hf.1]
    exact hd.held_item hi (hf.1 ▸ hf.2 ▸ hq)
  | itemInSession k sid rid =>
    intro h
    obtain ⟨i, hi, hf⟩ := List.any_eq_true.mp h
    simp only [Bool.and_eq_true, beq_iff_eq] at hf
    obtain ⟨hi, hs⟩ := List.mem_filter.mp hi
    rw [← hf.1, hd.item_of_inSession hi hs]
    exact hq
  | callOf k rid =>
    intro h
    obtain ⟨x, hx⟩ := Option.isSome_iff_exists.mp h
    obtain ⟨hl, hr⟩ := Option.filter_eq_some_iff.mp hx
    simp only [beq_iff_eq] at hr
    have hid : x.id = k := key_of_lookup hl
    rw [← hid]
    exact hd.held_call (mem_of_lookup hl) (hid ▸ hr ▸ hq)
  | _ => trivial

end Finds

section Part

variable [DecidableEq ζ] {k rid : Uuid}

theorem Data.lookup_sessions_part (hk : m.session k = z) :
    lookup k (d.part m z).sessions = lookup k d.sessions :=
  lookup_part (p := fun k => m.session k = z) (decide_eq_true hk)

theorem Data.lookup_orders_part (hk : m.order k = z) :
    lookup k (d.part m z).orders = lookup k d.orders :=
  lookup_part (p := fun k => m.order k = z) (decide_eq_true hk)

/-- A row of a restaurant of the region is found in the region or not at all. -/
theorem filter_lookup_part {V : Type} [Keyed V Uuid] {rows : List V} {g : Uuid → ζ} {f : V → Uuid}
    (hp : ∀ r ∈ rows, m.Near (f r) (g (key r))) (hh : m.Held (g k) rid z) :
    (lookup k (part (fun k => g k = z) rows)).filter (fun r => f r == rid) =
      (lookup k rows).filter fun r => f r == rid := by
  by_cases hk : g k = z
  · rw [lookup_part (p := fun k => g k = z) (decide_eq_true hk)]
  · have none_of {l : List V} (hl : ∀ r ∈ l, m.Near (f r) (g (key r))) :
        (lookup k l).filter (fun r => f r == rid) = none := by
      rw [Option.filter_eq_none_iff]
      intro r hr hf
      rw [beq_iff_eq] at hf
      have hn := hl r (mem_of_lookup hr)
      rw [key_of_lookup hr, hf] at hn
      exact hk (hh.near hn)
    rw [none_of hp, none_of fun r hr => hp r (mem_part.mp hr).1]

theorem Query.eval_part {q : Query} (hq : q.Within m z) (hd : d.Placed m) :
    q.eval ctx c (d.part m z) = q.eval ctx c d := by
  cases q with
  | openSessions tableId =>
    have hp : ∀ s ∈ d.sessions, (s.tableId == tableId && s.status == .opened) = true →
        decide (m.session (key s) = z) = true := by
      intro s hs h
      simp only [Bool.and_eq_true, beq_iff_eq] at h
      rw [decide_eq_true_iff, key_session, ← (hd.session s hs).1, h.1, hq]
    exact filter_part (p := fun k => m.session k = z) hp
  | sessionById k => exact Data.lookup_sessions_part hq
  | sessionOf k rid =>
    exact filter_lookup_part (g := m.session) (fun s hs => (hd.session s hs).2) hq
  | itemsOfSession k =>
    exact congrArg (fun l => l.mergeSort fun i j => i.requestedAt ≤ j.requestedAt)
      (Data.itemsOf_part hd hq)
  | unservedItems k =>
    exact congrArg (fun l => (l.filter OrderItem.isUnserved).map OrderItem.summary)
      (Data.itemsOf_part hd hq)
  | servedTotal k => exact congrArg QOrder.servedTotal (Data.itemsOf_part hd hq)
  | itemExists k rid =>
    have hp : ∀ i ∈ d.items, (i.id == k && i.restaurantId == rid) = true →
        decide (m.item (key i) = z) = true := by
      intro i hi h
      simp only [Bool.and_eq_true, beq_iff_eq] at h
      exact decide_eq_true (hd.held_item hi (h.1 ▸ h.2 ▸ hq))
    exact any_part (p := fun k => m.item k = z) hp
  | itemInSession k sid rid =>
    exact congrArg (fun l => l.any fun i => i.id == k && i.restaurantId == rid)
      (Data.itemsOf_part hd hq)
  | orderById k => exact Data.lookup_orders_part hq
  | itemById k => exact lookup_part (p := fun k => m.item k = z) (decide_eq_true hq)
  | recentCall tableId cooldownSeconds =>
    have hp : ∀ x ∈ d.calls,
        (x.tableId == tableId && decide (ctx.now - seconds cooldownSeconds < x.createdAt)) = true →
        decide (m.call (key x) = z) = true := by
      intro x hx h
      simp only [Bool.and_eq_true, beq_iff_eq] at h
      rw [decide_eq_true_iff, key_call, ← (hd.call x hx).2.1, h.1, hq]
    exact any_part (p := fun k => m.call k = z) hp
  | callOf k rid =>
    exact filter_lookup_part (g := m.call) (fun x hx => (hd.call x hx).2.2) hq
  | callById k => exact lookup_part (p := fun k => m.call k = z) (decide_eq_true hq)
  | staleSessions => exact hq.elim
  | _ => rfl

end Part

end QOrder
