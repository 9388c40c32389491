import QOrder.ItemProofs

/-! A service call that runs alone, from its first statement to its end, and the
changes of items a worker commits that way. -/

namespace QOrder

open KeyedTable Concurrency

variable {α β : Type} {σ σ' : Sys 1} {d d' : Data} {now : Timestamp} {i' : OrderItem}

/-- Runs an action on a database that no one else uses. -/
def Sys.alone (σ : Sys 1) (a : Action α) : Except Exn α × Sys 1 := a.run (fun q τ => τ.perform 0 q) σ

@[simp] theorem Sys.alone_ret (σ : Sys 1) (a : α) : σ.alone (.ret a) = (.ok a, σ) := rfl

@[simp] theorem Sys.alone_raise (σ : Sys 1) (e : Exn) :
    σ.alone (.raise e : Action α) = (.error e, σ) := rfl

theorem Sys.alone_stmt (σ : Sys 1) {q : Stmt} {k : Except DbError q.Resp → Action α} :
    σ.alone (.stmt q k) = (σ.perform 0 q).2.alone (k (σ.perform 0 q).1) := rfl

theorem Sys.alone_call (σ : Sys 1) {q : Stmt} {f : q.Resp → Action β} {a : q.Resp}
    (ha : (σ.perform 0 q).1 = .ok a) :
    σ.alone (Prog.call Exn.db q >>= f) = (σ.perform 0 q).2.alone (f a) := by
  rw [Prog.call, Prog.stmt_bind, Sys.alone_stmt, ha]
  rfl

theorem Sys.alone_command (σ : Sys 1) {c : Command} {f : Data → Action β}
    (hv : c.violation (σ.ctx 0) (σ.view 0) = none) : σ.alone (Action.command c >>= f) =
      (σ.record 0 (.command c) (.ok (σ.rows 0 c)) (σ.write 0 c)).alone (f (σ.rows 0 c)) := by
  have hp : σ.perform 0 (.command c) =
      (.ok (σ.rows 0 c), σ.record 0 (.command c) (.ok (σ.rows 0 c)) (σ.write 0 c)) := by
    simp only [Sys.perform, Sys.answer, hv]
  have ha := σ.alone_call (f := f) (congrArg Prod.fst hp)
  rw [hp] at ha
  exact ha

theorem Sys.alone_commit (σ : Sys 1) {f : Unit → Action β} :
    σ.alone (Action.commit >>= f) =
      (σ.record 0 .commit (.ok ()) (σ.commit 0)).alone (f ()) := rfl

/-- The changes of an item that the routers publish. -/
inductive ItemChange
  | setStatus (itemId : Uuid) (toStatus : OrderItemStatus) (actorUserId restaurantId : Uuid)
  | cancelCustomer (itemId restaurantId : Uuid) (reason : Option String)
  | cancelStaff (itemId restaurantId : Uuid) (reason : Option String)

namespace ItemChange

def action : ItemChange → Action OrderItem
  | setStatus itemId toStatus actorUserId restaurantId =>
    ItemStateService.setStatus itemId toStatus (some actorUserId) restaurantId
  | cancelCustomer itemId restaurantId reason =>
    ItemStateService.cancelItem itemId .customer restaurantId [.pending] reason
  | cancelStaff itemId restaurantId reason =>
    ItemStateService.cancelItem itemId .staff restaurantId [.pending, .cooking, .ready] reason

/-- The event a router builds from the row that the service returns. -/
def event : ItemChange → OrderItem → RealtimeEvent
  | setStatus _ _ _ _, i => .itemUpdated i.id i.status i.orderId
  | cancelCustomer _ _ _, i => .itemCancelled i.id i.status .customer none
  | cancelStaff _ _ _, i => .itemCancelled i.id i.status .staff (some i.orderId)

/-- The row the service returns and the data it has committed. -/
def commit (x : ItemChange) (d : Data) (now : Timestamp) : Option (OrderItem × Data) :=
  let out := (Sys.start 1 {} d now now 0).alone x.action
  out.1.toOption.map fun i => (i, out.2.data)

end ItemChange

theorem alone_updateItem {c : Command} {conflict : String}
    (hv : ∀ ctx d, c.violation ctx d = none) (hw : σ.writes 0 = {})
    (h : (σ.alone (ItemStateService.updateItem c conflict)).1 = .ok i') :
    (c.rows (σ.ctx 0) σ.data).items.head? = some i' ∧
      ∃ rows : Data, rows.items = [] ∧ rows.orders = [] ∧
        (σ.alone (ItemStateService.updateItem c conflict)).2.data =
          σ.data.overlay ((c.rows (σ.ctx 0) σ.data).overlay rows) := by
  have hview : σ.view 0 = σ.data := by rw [Sys.view, hw, Data.overlay_empty]
  have hrows : σ.rows 0 c = c.rows (σ.ctx 0) σ.data := by rw [Sys.rows, hview]
  unfold ItemStateService.updateItem at h ⊢
  rw [Sys.alone_command σ (hv ..), hrows] at h ⊢
  generalize hσ : σ.record 0 (.command c) (.ok (c.rows (σ.ctx 0) σ.data)) (σ.write 0 c) = σ₁ at h ⊢
  cases hh : (c.rows (σ.ctx 0) σ.data).items.head? with
  | none =>
    simp only [hh] at h
    cases h
  | some row =>
    simp only [hh] at h ⊢
    rw [Sys.alone_command σ₁ rfl, Sys.alone_commit] at h ⊢
    cases h
    refine ⟨rfl, σ₁.rows 0 (.touchSessionOfOrder i'.orderId), rfl, rfl, ?_⟩
    have hw₁ : σ₁.writes 0 = c.rows (σ.ctx 0) σ.data := by
      rw [← hσ]
      simp [Sys.record, Sys.write, hw, hrows, Data.overlay]
    have hd₁ : σ₁.data = σ.data := by
      rw [← hσ]
      rfl
    rw [← hw₁, ← hd₁]
    simp [Sys.alone, Prog.run, Sys.record, Sys.commit, Sys.view, Sys.write]
    rfl

section ItemChange

variable {x : ItemChange}

theorem Swap.single {c : Command} {itemId restaurantId : Uuid} {p : Timestamp → OrderItem → Bool}
    {g : Timestamp → OrderItem → OrderItem} (hs : Swap c itemId restaurantId p g) {ctx : Ctx}
    (hk : UniqueKeys d.items) (h : (c.rows ctx d).items.head? = some i') :
    c.rows ctx d = { items := [i'] } ∧ ∃ i, lookup i'.id d.items = some i ∧ i.Move ctx.now i' := by
  have hid : ∀ i, p ctx.now i = true → key i = itemId := fun _ hp => hs.id _ _ hp
  rw [hs.rows] at h ⊢
  rcases changed_cases hid hk (f := g ctx.now) with he | ⟨i, hl, hp, he⟩
  · rw [he] at h
    cases h
  · rw [he] at h ⊢
    cases h
    have hm := hs.move _ _ hp
    have hl' : lookup i.id d.items = some i := by rw [show i.id = itemId from key_of_lookup hl, hl]
    exact ⟨rfl, i, by rw [hm.id_eq, hl'], hm⟩

theorem statusUpdate_violation (ctx : Ctx) (itemId restaurantId : Uuid) (toStatus : OrderItemStatus)
    (actorUserId : Option Uuid) (allowed : List OrderItemStatus) :
    (ItemStateService.statusUpdate itemId toStatus actorUserId restaurantId allowed).violation ctx d =
      none := by
  unfold ItemStateService.statusUpdate
  split
  · rfl
  · split <;> rfl

/-- What a committed change does: one item has moved, nothing else of its session's items. -/
structure ItemChange.Commits (x : ItemChange) (d : Data) (now : Timestamp) (i' : OrderItem)
    (d' : Data) : Prop where
  moved : ∃ i, lookup i'.id d.items = some i ∧ i.Move now i'
  items : d'.items = overlay d.items [i']
  orders : d'.orders = d.orders
  event : x.event i' = .itemUpdated i'.id i'.status i'.orderId ∨
    i'.status = .cancelled ∧ ∃ cancelledBy orderId,
      x.event i' = .itemCancelled i'.id i'.status cancelledBy orderId

theorem ItemChange.commits_of_update {c : Command} {conflict : String} {itemId restaurantId : Uuid}
    {p : Timestamp → OrderItem → Bool} {g : Timestamp → OrderItem → OrderItem}
    (hx : x.action = ItemStateService.updateItem c conflict) (hs : Swap c itemId restaurantId p g)
    (hv : ∀ ctx d, c.violation ctx d = none) (hk : UniqueKeys d.items)
    (h : x.commit d now = some (i', d')) :
    (∃ i, lookup i'.id d.items = some i ∧ i.Move now i' ∧ c.rows ⟨now, 0⟩ d = { items := [i'] }) ∧
      d'.items = overlay d.items [i'] ∧ d'.orders = d.orders := by
  unfold ItemChange.commit at h
  rw [hx] at h
  obtain ⟨i, hr, he⟩ := Option.map_eq_some_iff.mp h
  cases he
  cases hout : ((Sys.start 1 {} d now now 0).alone (ItemStateService.updateItem c conflict)).1 with
  | error e => simp [hout, Except.toOption] at hr
  | ok row =>
    simp only [hout, Except.toOption, Option.some.injEq] at hr
    subst hr
    obtain ⟨hh, rows, hi, ho, hd⟩ := alone_updateItem hv rfl hout
    change (c.rows ⟨now, 0⟩ d).items.head? = some row at hh
    change _ = d.overlay ((c.rows ⟨now, 0⟩ d).overlay rows) at hd
    obtain ⟨hrows, i, hl, hm⟩ := hs.single hk hh
    refine ⟨⟨i, hl, hm, hrows⟩, ?_, ?_⟩
    · rw [hd, hrows]
      simp [hi]
    · rw [hd, hrows]
      simp [ho]

theorem ItemChange.commits_of_cancel {cancelledBy : CancelledBy} {reason : Option String}
    {itemId restaurantId : Uuid} {allowed : List OrderItemStatus}
    (hx : x.action = ItemStateService.cancelItem itemId cancelledBy restaurantId allowed reason)
    (he : ∃ orderId, x.event i' = .itemCancelled i'.id i'.status cancelledBy orderId)
    (ha : ∀ status ∈ allowed, status ∈ [.pending, .cooking, .ready]) (hk : UniqueKeys d.items)
    (h : x.commit d now = some (i', d')) : x.Commits d now i' d' := by
  have hs := cancelItem_swap itemId restaurantId cancelledBy reason allowed ha
  obtain ⟨⟨i, hl, hm, hrows⟩, hi, ho⟩ := commits_of_update hx hs (fun _ _ => rfl) hk h
  refine ⟨⟨i, hl, hm⟩, hi, ho, .inr ⟨?_, cancelledBy, he⟩⟩
  rw [hs.rows] at hrows
  have hmem : i' ∈ changed (fun i : OrderItem => i.matchesId itemId restaurantId allowed)
      (fun i => i.cancel cancelledBy now reason) d.items := by
    have hitems := congrArg Data.items hrows
    dsimp only at hitems
    rw [hitems]
    exact List.mem_singleton_self i'
  obtain ⟨j, -, -, rfl⟩ := mem_changed.mp hmem
  rfl

theorem ItemChange.commits (hk : UniqueKeys d.items) (h : x.commit d now = some (i', d')) :
    x.Commits d now i' d' := by
  cases x with
  | setStatus itemId toStatus actorUserId restaurantId =>
    cases ha : ItemStateService.allowedFrom toStatus with
    | none =>
      simp only [ItemChange.commit, ItemChange.action, ItemStateService.setStatus, ha] at h
      cases h
    | some allowed =>
      obtain ⟨p, g, hs, -⟩ := statusUpdate_swap itemId restaurantId (some actorUserId) ha
      have hx : (ItemChange.setStatus itemId toStatus actorUserId restaurantId).action =
          ItemStateService.updateItem
            (ItemStateService.statusUpdate itemId toStatus (some actorUserId) restaurantId allowed)
            "Trạng thái món đã thay đổi bởi người khác hoặc điều kiện không thoả." := by
        simp only [ItemChange.action, ItemStateService.setStatus, ha]
      have hv (ctx : Ctx) (d : Data) :=
        statusUpdate_violation (d := d) ctx itemId restaurantId toStatus (some actorUserId) allowed
      have hc := ItemChange.commits_of_update hx hs hv hk h
      obtain ⟨⟨i, hl, hm, -⟩, hi, ho⟩ := hc
      exact ⟨⟨i, hl, hm⟩, hi, ho, .inl rfl⟩
  | cancelCustomer itemId restaurantId reason =>
    exact ItemChange.commits_of_cancel rfl ⟨_, rfl⟩ (by simp) hk h
  | cancelStaff itemId restaurantId reason =>
    exact ItemChange.commits_of_cancel rfl ⟨_, rfl⟩ (by simp) hk h

end ItemChange

end QOrder
