import QOrder.SweepProofs

/-! Changing one item: a compare-and-swap on the item, the touch of its session, and
the commit. -/

namespace QOrder

open KeyedTable Concurrency ItemStateService

variable {n : Nat} {owner : Uuid → Uuid} {req : Fin n → Request} {d₀ d : Data} {σ : Sys n}
  {t : Fin n} {h : Holding} {l l' : List (Event n)} {α : Type} {i : OrderItem} {s : TableSession}

/-- An update of the item `itemId`, where `p` holds, by `g`. -/
structure Swap (c : Command) (itemId restaurantId : Uuid) (p : Timestamp → OrderItem → Bool)
    (g : Timestamp → OrderItem → OrderItem) : Prop where
  rows : ∀ ctx d, c.rows ctx d = { items := changed (p ctx.now) (g ctx.now) d.items }
  id : ∀ now i, p now i = true → i.id = itemId
  restaurant : ∀ now i, p now i = true → i.restaurantId = restaurantId
  move : ∀ now i, p now i = true → i.Move now (g now i)
  runs : Holding.nothing.Runs c
  notAbandon : ∀ k, c ≠ .abandonSession k

theorem matchesId_iff {itemId restaurantId : Uuid} {allowed : List OrderItemStatus} :
    i.matchesId itemId restaurantId allowed = true ↔
      i.id = itemId ∧ i.restaurantId = restaurantId ∧ i.status ∈ allowed := by
  simp [OrderItem.matchesId, and_assoc]

theorem isUnserved_of_mem (h : i.status ∈ [.pending, .cooking, .ready]) : i.isUnserved = true := by
  have hs : i.status = .pending ∨ i.status = .cooking ∨ i.status = .ready := by simpa using h
  rcases hs with hs | hs | hs <;> simp [OrderItem.isUnserved, hs, OrderItemStatus.unserved]

theorem statusUpdate_swap (itemId restaurantId : Uuid) {toStatus : OrderItemStatus}
    (actorUserId : Option Uuid) {allowed : List OrderItemStatus}
    (ha : allowedFrom toStatus = some allowed) :
    ∃ p g, Swap (statusUpdate itemId toStatus actorUserId restaurantId allowed) itemId restaurantId p g ∧
      ∀ now i, (g now i).status = toStatus := by
  have hmem {i : OrderItem} (hp : i.matchesId itemId restaurantId allowed = true) := matchesId_iff.mp hp
  cases toStatus with
  | pending =>
    cases ha
    refine ⟨fun now i => i.matchesId itemId restaurantId [.served] && i.undoable now,
      fun _ i => i.undo .pending, ⟨fun _ _ => rfl, ?_, ?_, ?_, rfl, ?_⟩, fun _ _ => rfl⟩
    · intro now i hp
      exact (hmem (Bool.and_eq_true_iff.mp hp).1).1
    · intro now i hp
      exact (hmem (Bool.and_eq_true_iff.mp hp).1).2.1
    · intro now i hp
      obtain ⟨hm, hu⟩ := Bool.and_eq_true_iff.mp hp
      exact .undo (by simpa using (hmem hm).2.2) hu
    · simp [statusUpdate]
  | served =>
    cases ha
    refine ⟨fun _ i => i.matchesId itemId restaurantId [.pending, .cooking, .ready],
      fun now i => i.serve .served actorUserId now,
      ⟨fun _ _ => rfl, fun _ _ hp => (hmem hp).1, fun _ _ hp => (hmem hp).2.1,
        fun _ _ hp => .serve _ (isUnserved_of_mem (hmem hp).2.2), rfl, ?_⟩, fun _ _ => rfl⟩
    simp [statusUpdate]
  | cooking =>
    cases ha
    refine ⟨fun _ i => i.matchesId itemId restaurantId [.pending], fun _ i => i.advance .cooking,
      ⟨fun _ _ => rfl, fun _ _ hp => (hmem hp).1, fun _ _ hp => (hmem hp).2.1,
        fun _ _ hp => .cook (by simpa using (hmem hp).2.2), rfl, ?_⟩, fun _ _ => rfl⟩
    simp [statusUpdate]
  | ready =>
    cases ha
    refine ⟨fun _ i => i.matchesId itemId restaurantId [.pending, .cooking],
      fun _ i => i.advance .ready,
      ⟨fun _ _ => rfl, fun _ _ hp => (hmem hp).1, fun _ _ hp => (hmem hp).2.1,
        fun _ _ hp => .ready (by simpa using (hmem hp).2.2), rfl, ?_⟩, fun _ _ => rfl⟩
    simp [statusUpdate]
  | cancelled => cases ha

theorem cancelItem_swap (itemId restaurantId : Uuid) (cancelledBy : CancelledBy)
    (cancelReason : Option String) (allowed : List OrderItemStatus)
    (ha : ∀ status ∈ allowed, status ∈ [.pending, .cooking, .ready]) :
    Swap (.cancelItem cancelledBy cancelReason itemId restaurantId allowed) itemId restaurantId
      (fun _ i => i.matchesId itemId restaurantId allowed)
      (fun now i => i.cancel cancelledBy now cancelReason) where
  rows _ _ := rfl
  id _ _ hp := (matchesId_iff.mp hp).1
  restaurant _ _ hp := (matchesId_iff.mp hp).2.1
  move _ _ hp := .cancel _ _ (isUnserved_of_mem (ha _ (matchesId_iff.mp hp).2.2))
  runs := rfl
  notAbandon := by simp

theorem Swap.allowed {c : Command} {itemId restaurantId : Uuid} {p : Timestamp → OrderItem → Bool}
    {g : Timestamp → OrderItem → OrderItem} (hs : Swap c itemId restaurantId p g) (r : Request)
    (l : List (Event n)) : Allowed owner r l .nothing (.command c) := by
  cases c
  case abandonSession k => exact absurd rfl (hs.notAbandon k)
  all_goals exact hs.runs

/-- The client has committed the row of an item of the session. -/
structure Moved (owner : Uuid → Uuid) (r : Request) (l : List (Event n)) (row : OrderItem)
    (s : TableSession) : Prop where
  committed : ∃ l₁ e l₂ i, l = l₁ ++ e :: l₂ ∧ MoveOf l₁ i row s r ∧ e.Made owner (.moved i row s)

/-- What an update of an item leaves behind; `good` is what it says about the session. -/
def ItemPost (owner : Uuid → Uuid) (r : Request) (restaurantId : Uuid) (good : TableSession → Prop)
    (res : Except Exn OrderItem) (h' : Holding) (l' : List (Event n)) : Prop :=
  h' = .nothing ∧
    match res with
    | .ok row => row.restaurantId = restaurantId ∧ ∃ s, good s ∧ Moved owner r l' row s
    | .error e => e.Ordinary

namespace Holding

variable {now : Timestamp}

theorem moving_touch (ctx : Ctx) (hd : d.Ok owner) {i' : OrderItem}
    (hv : (moving i i').Valid owner now d) (hn : ctx.now = now) :
    ∃ s, (moved i i' s).Valid owner now d ∧ (moved i i' s).writes now d =
      ((moving i i').writes now d).overlay ((Command.touchSessionOfOrder i'.orderId).rows ctx
        (d.overlay ((moving i i').writes now d))) := by
  obtain ⟨hl, hm⟩ := hv
  obtain ⟨s, hs, hin⟩ := hd.session_of_item (mem_of_lookup hl)
  obtain ⟨o, ho, hk⟩ := (Data.inSession_iff hd).mp hin
  refine ⟨s, ⟨hl, hm, hd.mem_sessions.mp hs, hin⟩, ?_⟩
  subst hn
  have hpin (r : TableSession) :
      ((lookup i'.orderId d.orders).any fun o => o.tableSessionId == r.id) = true ↔ r.id = s.id := by
    simp only [hm.orderId_eq, ho, Option.any_some, beq_iff_eq, hk]
    exact eq_comm
  have hrows := changed_eq_singleton (f := fun r => TableSession.touch r ctx.now) (r := s)
    (fun r hr => (hpin r).mp hr) hd.sessionIds (hd.mem_sessions.mp hs) ((hpin s).mpr rfl)
  simp [writes, Command.rows, Data.overlay, hrows]

end Holding

namespace Triple

variable {post : Except Exn α → Holding → List (Event n) → Prop}

theorem updateItem {c : Command} {itemId restaurantId : Uuid} {p : Timestamp → OrderItem → Bool}
    {g : Timestamp → OrderItem → OrderItem} {conflict : String} {good : TableSession → Prop}
    (hsw : Swap c itemId restaurantId p g)
    (hj : ∀ σ l' now i s, Inv owner req d₀ σ → (∀ e ∈ l', e.after.Grows σ.data) →
      lookup i.id σ.data.items = some i → lookup s.id σ.data.sessions = some s →
      σ.data.inSession s.id i = true → p now i = true → Quiet l l' →
      good s ∧ ∀ l'', Quiet l' l'' → MoveOf l'' i (g now i) s (req t)) :
    Triple owner req d₀ t .nothing l (ItemStateService.updateItem c conflict)
      (ItemPost owner (req t) restaurantId good) := by
  unfold ItemStateService.updateItem
  refine command (hsw.allowed ..) (fun σ hi ha _ _ => ?_) fun σ e hi ha => ⟨rfl, trivial⟩
  have hr : σ.rows t c = { items := changed (p (σ.now t)) (g (σ.now t)) σ.data.items } := by
    rw [ha.rows_nothing, hsw.rows]
    rfl
  have hpk : ∀ i, p (σ.now t) i = true → key i = itemId := fun _ hp => hsw.id _ _ hp
  rw [hr]
  rcases changed_cases hpk hi.ok.itemIds (f := g (σ.now t)) with he | ⟨i, hl, hp, he⟩
  · rw [he]
    exact ⟨.nothing, (empty_overlay _).symm, trivial, .raise ⟨rfl, trivial⟩⟩
  rw [he]
  have hid : i.id = itemId := key_of_lookup hl
  have hm := hsw.move _ _ hp
  refine ⟨.moving i (g (σ.now t) i), (empty_overlay _).symm, ⟨hid ▸ hl, hm⟩, ?_⟩
  simp only [List.head?_cons]
  refine command ⟨i, _, rfl, hm.orderId_eq.symm⟩ (fun σ₁ hi₁ ha₁ _ _ => ?_)
    fun σ e hi ha => ⟨rfl, trivial⟩
  obtain ⟨s, hv, hw⟩ := Holding.moving_touch (σ₁.ctx t) hi₁.ok ha₁.valid rfl
  refine ⟨.moved i _ s, by rw [hw, Sys.rows, ha₁.view], hv, ?_⟩
  have hq := (Quiet.refl l).snoc (e := σ.event t (.command c)
    (.ok { items := [g (σ.now t) i] }) σ.data) rfl
  obtain ⟨hgood, hmove⟩ := hj σ₁ _ (σ.now t) i s hi₁ (fun e he => hi₁.own_grows ha₁ he) hv.1 hv.2.2.1
    hv.2.2.2 hp hq
  refine commit trivial (hmove _ ((Quiet.refl _).snoc rfl)) fun σ₂ hi₂ ha₂ => ?_
  refine .ret ⟨rfl, hm.restaurantId_eq.trans (hsw.restaurant _ _ hp), s, hgood, ?_⟩
  exact ⟨_, _, [], i, rfl, hmove _ ((Quiet.refl _).snoc rfl), rfl, hi₂.ok, ha₂.valid, trivial, rfl⟩

/-- The handler reads the order of the item it has changed and publishes. -/
theorem publishUpdated {restaurantId : Uuid} {item : OrderItem} {event : RealtimeEvent}
    {f : Unit → Action α} (hr : item.restaurantId = restaurantId) (hm : Moved owner (req t) l item s)
    (hev : event = .itemUpdated item.id item.status item.orderId ∨
      ∃ cancelledBy orderId, event = .itemCancelled item.id item.status cancelledBy orderId ∧
        item.status = .cancelled ∧ ∀ k ∈ orderId, k = item.orderId)
    (hk : ∀ l', Quiet l l' → Triple owner req d₀ t .nothing l' (f ()) post) :
    Triple owner req d₀ t .nothing l (Kitchen.publishUpdated restaurantId item event >>= f) post := by
  simp only [Kitchen.publishUpdated, bind_assoc]
  refine query fun σ hi ha => ⟨_, ha, ?_⟩
  obtain ⟨l₁, e, l₂, i, rfl, hmove, hmade⟩ := hm.committed
  obtain ⟨-, hmv, -, hin⟩ := hmade.valid
  obtain ⟨o, ho, hk'⟩ := (Data.inSession_iff hmade.ok).mp hin
  have hafter : lookup i.orderId e.after.orders = some o := by
    rw [hmade.after]
    simpa [Holding.writes] using ho
  have hg := hi.own_grows ha (List.mem_append_right l₁ List.mem_cons_self)
  rw [ha.view_nothing, Query.eval, hmv.orderId_eq, hg.order hafter]
  simp only [Action.scalarOne, Prog.pure_def, Prog.ret_bind]
  refine publishBoth (fun channel hof => Told.append ?_ _) fun e₁ e₂ h₁ h₂ => hk _ ?_
  · rw [hk', ← hr] at hof
    exact ⟨l₁, e, l₂, .moved i item s, rfl, hmove, hmade, hof, hev⟩
  · exact (((Quiet.refl _).snoc rfl).snoc (by simp [Event.isCommit, h₁])).snoc
      (by simp [Event.isCommit, h₂])

theorem translate {p : Action α} {f : Exn → Exn}
    {post' : Except Exn α → Holding → List (Event n) → Prop}
    (hp : Triple owner req d₀ t h l p post)
    (hok : ∀ a h' l', post (.ok a) h' l' → post' (.ok a) h' l')
    (hf : ∀ e h' l', post (.error e) h' l' → post' (.error (f e)) h' l') :
    Triple owner req d₀ t h l (translate f p) post' :=
  hp.tryCatch hok fun e h' l' hr => .raise (hf e h' l' hr)

end Triple

theorem conflictToHttp_ordinary {e : Exn} (he : e.Ordinary) : (conflictToHttp e).Ordinary := by
  cases e <;> exact he

theorem valueErrorToHttp_ordinary {e : Exn} {statusCode : Nat} (he : e.Ordinary) :
    (valueErrorToHttp statusCode e).Ordinary := by
  cases e <;> exact he

/-- A handler that ends without holding anything, and without an extraordinary error. -/
def OrdinaryPost (r : Except Exn α) (h' : Holding) (_ : List (Event n)) : Prop :=
  h' = .nothing ∧ ∀ e, r = .error e → e.Ordinary

namespace Triple

theorem ordinary_error {e : Exn} (he : e.Ordinary) {l : List (Event n)} :
    OrdinaryPost (.error e : Except Exn α) .nothing l :=
  ⟨rfl, fun _ h => Except.error.inj h ▸ he⟩

theorem ordinaryAsHttp {p : Action α} {f : Exn → Exn}
    (hp : Triple owner req d₀ t h l p OrdinaryPost) (hf : ∀ e : Exn, e.Ordinary → (f e).Ordinary) :
    Triple owner req d₀ t h l (QOrder.translate f p) OrdinaryPost :=
  translate hp (fun _ _ _ ha => ha) fun e _ _ he =>
    ⟨he.1, fun _ heq => Except.error.inj heq ▸ hf e (he.2 e rfl)⟩

theorem conflictsAsHttp {p : Action OrderItem} {r : Request} {k : Uuid} {P : TableSession → Prop}
    (hp : Triple owner req d₀ t h l p (ItemPost owner r k P)) :
    Triple owner req d₀ t h l (QOrder.translate conflictToHttp p) (ItemPost owner r k P) :=
  translate hp (fun _ _ _ ha => ha) fun _ _ _ he => ⟨he.1, conflictToHttp_ordinary he.2⟩

theorem setStatus {user : TokenPayload} {itemId : Uuid} {toStatus : OrderItemStatus}
    (hreq : req t = .setItemStatus user itemId toStatus) (hl : commitsOf l = []) :
    Triple owner req d₀ t .nothing l
      (ItemStateService.setStatus itemId toStatus (some user.sub) user.restaurantId)
      (ItemPost owner (req t) user.restaurantId fun _ => True) := by
  unfold ItemStateService.setStatus
  split
  · exact .raise ⟨rfl, trivial⟩
  · rename_i allowed hal
    obtain ⟨p, g, hsw, hst⟩ := statusUpdate_swap itemId user.restaurantId (some user.sub) hal
    refine updateItem hsw fun σ' l' now i s _ _ _ _ _ hp hq => ⟨trivial, fun l'' hq' => ?_⟩
    rw [hreq]
    refine ⟨(hq.trans hq').commitsOf.trans hl, hsw.id now i hp, hsw.restaurant now i hp, hst now i, ?_⟩
    rintro rfl
    cases hal

theorem setItemStatus {user : TokenPayload} {itemId : Uuid} {toStatus : OrderItemStatus}
    (hreq : req t = .setItemStatus user itemId toStatus) :
    Triple owner req d₀ t .nothing [] (Kitchen.setItemStatus user itemId toStatus) OrdinaryPost := by
  unfold Kitchen.setItemStatus
  refine query fun σ hi ha => ⟨_, ha, ?_⟩
  split
  · refine (conflictsAsHttp (setStatus hreq rfl)).bind ?_ fun e h' l' hp => hp.1 ▸ ordinary_error hp.2
    rintro row h' l' ⟨rfl, hr, s, -, hrow⟩
    exact publishUpdated hr hrow (.inl rfl) fun l'' _ => .ret ⟨rfl, by simp⟩
  · exact .raise (ordinary_error (e := Kitchen.itemMissing) trivial)

theorem cancelItem {user : TokenPayload} {itemId : Uuid} {reason : Option String}
    (hreq : req t = .cancelItemStaff user itemId reason) (hl : commitsOf l = []) :
    Triple owner req d₀ t .nothing l
      (ItemStateService.cancelItem itemId .staff user.restaurantId [.pending, .cooking, .ready] reason)
      (ItemPost owner (req t) user.restaurantId fun _ => True) := by
  have hsw := cancelItem_swap itemId user.restaurantId .staff reason [.pending, .cooking, .ready]
    fun _ h => h
  refine updateItem hsw fun σ' l' now i s _ _ _ _ _ hp hq => ⟨trivial, fun l'' hq' => ?_⟩
  rw [hreq]
  exact ⟨(hq.trans hq').commitsOf.trans hl, hsw.id now i hp, hsw.restaurant now i hp, rfl⟩

theorem cancelItemStaff {user : TokenPayload} {itemId : Uuid} {reason : Option String}
    (hreq : req t = .cancelItemStaff user itemId reason) :
    Triple owner req d₀ t .nothing [] (Kitchen.cancelItemStaff user itemId reason) OrdinaryPost := by
  unfold Kitchen.cancelItemStaff
  refine query fun σ hi ha => ⟨_, ha, ?_⟩
  split
  · refine (conflictsAsHttp (cancelItem hreq rfl)).bind ?_ fun e h' l' hp => hp.1 ▸ ordinary_error hp.2
    rintro row h' l' ⟨rfl, hr, s, -, hrow⟩
    obtain ⟨l₁, e, l₂, i, rfl, hmove, hmade⟩ := hrow.committed
    have hst : row.status = .cancelled := by
      rw [hreq] at hmove
      exact hmove.2.2.2
    refine publishUpdated hr hrow (.inr ⟨_, _, rfl, hst, ?_⟩) fun l'' _ => .ret ⟨rfl, by simp⟩
    simp
  · exact .raise (ordinary_error (e := Kitchen.itemMissing) trivial)

end Triple

end QOrder
