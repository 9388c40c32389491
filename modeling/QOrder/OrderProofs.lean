import QOrder.ItemProofs

/-! The customer's requests: resolving the table, placing an order, calling the staff. -/

namespace QOrder

open KeyedTable Concurrency

variable {n : Nat} {owner : Uuid → Uuid} {req : Fin n → Request} {d₀ d : Data} {σ : Sys n}
  {t : Fin n} {h : Holding} {l l' : List (Event n)} {α : Type} {s : TableSession} {tableId : Uuid}

theorem Quiet.ext (hq : Quiet l l') : l <+: l' := by
  obtain ⟨m, rfl, -⟩ := hq
  simp

theorem Resolved.ext {qrToken : String} (h : Resolved qrToken tableId l) (hl : l <+: l') :
    Resolved qrToken tableId l' := by
  obtain ⟨m, rfl⟩ := hl
  exact h.append m

/-- Looking up or committing a session of the table, the client has met an open one. -/
def MetOpen (tableId sessionId : Uuid) (l : List (Event n)) : Prop :=
  ∃ e ∈ l, (e.stmt = .query (.openSessions tableId) ∨ e.stmt = .commit) ∧
    ∃ s, lookup sessionId e.after.sessions = some s ∧ s.tableId = tableId ∧ s.status = .opened

theorem SeenOpen.met {k : Uuid} (h : SeenOpen tableId k l) : MetOpen tableId k l := by
  obtain ⟨l₁, e, l₂, rfl, -, hq, hs⟩ := h
  exact ⟨e, by simp, hq, hs⟩

theorem MetOpen.ext {k : Uuid} (h : MetOpen tableId k l) (hl : l <+: l') : MetOpen tableId k l' := by
  obtain ⟨m, rfl⟩ := hl
  obtain ⟨e, he, h⟩ := h
  exact ⟨e, List.mem_append_left _ he, h⟩

/-- The session a client has met is still there, at the same table. -/
theorem SeenOpen.session {k : Uuid} (hseen : SeenOpen tableId k l)
    (hg : ∀ e ∈ l, e.after.Grows d) :
    ∃ s, lookup k d.sessions = some s ∧ s.id = k ∧ s.tableId = tableId := by
  obtain ⟨l₁, e, l₂, rfl, -, -, s, hs, ht, -⟩ := hseen
  obtain ⟨s', hs', ht', -⟩ := (hg e (by simp)).session hs
  exact ⟨s', hs', key_of_lookup hs', ht'.trans ht⟩

/-- How a customer's request ends; `good` is what it says about its answer. -/
def CustomerPost (qrToken : String) (good : α → List (Event n) → Prop) (r : Except Exn α)
    (h' : Holding) (l' : List (Event n)) : Prop :=
  h' = .nothing ∧
    match r with
    | .ok a => good a l'
    | .error e => e.Ordinary ∨ (∃ message, e = .runtimeError message) ∧
      ∃ tableId, Resolved qrToken tableId l' ∧ Lost tableId l'

namespace Data

theorem newItems_ids {rows : List NewItem} {k : Uuid} :
    UniqueKeys (rows.mapIdx fun j r => r.row (k + j)) := by
  rw [UniqueKeys, List.nodup_iff_pairwise_ne, List.pairwise_map, List.pairwise_iff_getElem]
  intro a b ha hb hab
  simp only [List.getElem_mapIdx, key_item, NewItem.row_id]
  exact fun he => absurd (Nat.add_left_cancel he) (by omega)

theorem newItems_new {rows : List NewItem} {k : Uuid} {o : Order} (hd : d.Below k)
    (ho : ∀ r ∈ rows, r.orderId = o.id ∧ r.restaurantId = o.restaurantId)
    (hn : lookup o.id d.orders = none)
    (hs : ∃ s, lookup o.tableSessionId d.sessions = some s ∧ s.restaurantId = o.restaurantId) :
    d.NewOrder o (rows.mapIdx fun j r => r.row (k + j)) := by
  have hm {i : OrderItem} (hi : i ∈ rows.mapIdx fun j r => r.row (k + j)) :
      ∃ r ∈ rows, ∃ j, i = r.row (k + j) := by
    obtain ⟨j, hj, rfl⟩ := List.mem_mapIdx.mp hi
    exact ⟨_, List.getElem_mem hj, j, rfl⟩
  refine ⟨hn, hs, newItems_ids, fun i hi => ?_, fun i hi => ?_, fun i hi => ?_, fun i hi => ?_, fun i hi => ?_⟩
  · obtain ⟨r, -, j, rfl⟩ := hm hi
    rw [lookup_eq_none]
    intro x hx he
    have hlt : k + j < k := (show x.id = k + j from he) ▸ hd.items x hx
    exact absurd hlt (Nat.not_lt.mpr (Nat.le_add_right k j))
  · obtain ⟨r, hr, j, rfl⟩ := hm hi
    exact (ho r hr).1
  · obtain ⟨r, hr, j, rfl⟩ := hm hi
    exact (ho r hr).2
  · obtain ⟨r, -, j, rfl⟩ := hm hi
    rfl
  · obtain ⟨r, -, j, rfl⟩ := hm hi
    exact ⟨by simp, by simp, by simp, by simp⟩

theorem Below.new_session (hd : d.Below k) : lookup k d.sessions = none :=
  lookup_eq_none.mpr fun s hs he => absurd (hd.sessions s hs) (by simpa using he.ge)

theorem Below.new_order (hd : d.Below k) : lookup k d.orders = none :=
  lookup_eq_none.mpr fun s hs he => absurd (hd.orders s hs) (by simpa using he.ge)

theorem Below.new_call (hd : d.Below k) : lookup k d.calls = none :=
  lookup_eq_none.mpr fun s hs he => absurd (hd.calls s hs) (by simpa using he.ge)

end Data

theorem touch_rows {k : Uuid} (hd : UniqueKeys d.sessions) (hs : lookup k d.sessions = some s)
    (at_ : Timestamp) :
    changed (fun r => r.id == k) (fun r => r.touch at_) d.sessions = [s.touch at_] := by
  have hk : s.id = k := key_of_lookup hs
  exact changed_eq_singleton (k := k) (by simp) hd hs (by simpa using hk)

theorem newItems_order {restaurantId orderId : Uuid} {now : Timestamp} {menuItems : List MenuItem}
    {lines : List CreateOrderItemRequest} :
    ∀ r ∈ Customer.newItems restaurantId orderId now menuItems lines,
      r.orderId = orderId ∧ r.restaurantId = restaurantId := by
  intro r hr
  simp only [Customer.newItems, List.mem_filterMap, Option.map_eq_some_iff] at hr
  obtain ⟨line, -, m, -, rfl⟩ := hr
  exact ⟨rfl, rfl⟩

/-- The client has committed the order with its items. -/
structure Placed (owner : Uuid → Uuid) (r : Request) (l : List (Event n)) (o : Order)
    (items : List OrderItem) : Prop where
  committed : ∃ l₁ e l₂ h, l = l₁ ++ e :: l₂ ∧ h.Places o items ∧ Justified l₁ h r ∧ e.Made owner h

theorem Placed.rows {r : Request} {o : Order} {items : List OrderItem} (hp : Placed owner r l o items) :
    ∃ e ∈ l, lookup o.id e.after.orders = some o ∧ ∀ i ∈ items, (lookup i.id e.after.items).isSome := by
  obtain ⟨l₁, e, l₂, h, rfl, hh, -, hm⟩ := hp.committed
  have hafter := hm.after
  refine ⟨e, by simp, ?_, fun i hi => ?_⟩
  · simp [hafter, hh.writes_orders, lookup_singleton]
  · have hl := lookup_of_mem (hh.newOrder hm.valid).itemIds hi
    simp only [key_item] at hl
    simp [hafter, hh.writes_items, hl]

/-- Every line of the order is about one of the menu items. -/
def Covers (menuItems : List MenuItem) (lines : List CreateOrderItemRequest) : Prop :=
  ∀ line ∈ lines, ∃ m ∈ menuItems, m.id = line.menuItemId

theorem newItems_ne_nil {restaurantId orderId : Uuid} {now : Timestamp} {menuItems : List MenuItem}
    {lines : List CreateOrderItemRequest} (hc : Covers menuItems lines) (hl : lines ≠ []) :
    Customer.newItems restaurantId orderId now menuItems lines ≠ [] := by
  obtain ⟨line, lines, rfl⟩ := List.exists_cons_of_ne_nil hl
  obtain ⟨m, hm, hid⟩ := hc line List.mem_cons_self
  have hsome : (menuItems.find? fun m => m.id == line.menuItemId).isSome := by
    rw [List.find?_isSome]
    exact ⟨m, hm, by simp [hid]⟩
  obtain ⟨m', hm'⟩ := Option.isSome_iff_exists.mp hsome
  simp [Customer.newItems, hm']

/-- A row is in the map once it has been added, unless its id is known. -/
theorem covered {menuItems menuItems' : List MenuItem} {row : MenuItem}
    (hsub : (if (menuItems.find? fun m => m.id == row.id).isSome then menuItems
      else menuItems ++ [row]) ⊆ menuItems') : ∃ m ∈ menuItems', m.id = row.id := by
  cases hf : menuItems.find? fun m => m.id == row.id with
  | none =>
    rw [hf] at hsub
    exact ⟨row, hsub (by simp), rfl⟩
  | some m =>
    rw [hf] at hsub
    exact ⟨m, hsub (by simpa using List.mem_of_find?_eq_some hf), by simpa using List.find?_some hf⟩

namespace Triple

variable {post : Except Exn α → Holding → List (Event n) → Prop}

theorem resolveTable {qrToken : String} {f : Table × Restaurant → Action α}
    (hok : ∀ l' table restaurant, Quiet l l' → Resolved qrToken table.id l' →
      restaurant.id = owner table.id →
      Triple owner req d₀ t .nothing l' (f (table, restaurant)) post)
    (herr : ∀ l' e, Quiet l l' → e.Ordinary → post (.error e) .nothing l') :
    Triple owner req d₀ t .nothing l (Customer.resolveTable qrToken >>= f) post := by
  simp only [Customer.resolveTable, bind_assoc]
  refine query fun σ hi ha => ⟨_, ha, ?_⟩
  rw [Query.eval]
  cases htab : σ.catalog.activeTable qrToken with
  | none => exact .raise (herr _ _ ((Quiet.refl l).snoc rfl) trivial)
  | some table =>
    simp only [bind_assoc]
    refine query fun σ₁ hi₁ ha₁ => ⟨_, ha₁, ?_⟩
    rw [Query.eval]
    cases hres : σ₁.catalog.restaurants.find? fun r => r.id == table.restaurantId && r.isActive with
    | none => exact .raise (herr _ _ (((Quiet.refl l).snoc rfl).snoc rfl) trivial)
    | some restaurant =>
      have hid : restaurant.id = table.restaurantId := by
        have := List.find?_some hres
        simp only [Bool.and_eq_true, beq_iff_eq] at this
        exact this.1
      have hown := hi.owned table (List.mem_of_find?_eq_some htab)
      refine hok _ table restaurant (((Quiet.refl l).snoc rfl).snoc rfl) (Resolved.append ?_ _)
        (hid.trans hown)
      exact ⟨_, List.mem_append_right _ List.mem_cons_self, rfl, table, htab, rfl⟩

theorem readAttribute {β : Type} {expired : Bool} {a : β} {f : β → Action α}
    (hok : Triple owner req d₀ t h l (f a) post)
    (herr : post (.error .missingGreenlet) h l) :
    Triple owner req d₀ t h l (readAttribute expired a >>= f) post := by
  unfold QOrder.readAttribute
  split
  · exact .raise herr
  · exact hok

theorem validateItems {restaurantId : Uuid} {lines : List CreateOrderItemRequest}
    {menuItems : List MenuItem} {f : List MenuItem → Action α}
    (hok : ∀ l' menuItems', Quiet l l' → menuItems ⊆ menuItems' → Covers menuItems' lines →
      Triple owner req d₀ t .nothing l' (f menuItems') post)
    (herr : ∀ l' e, Quiet l l' → e.Ordinary → post (.error e) .nothing l') :
    Triple owner req d₀ t .nothing l
      (Customer.validateItems restaurantId lines menuItems >>= f) post := by
  induction lines generalizing l menuItems with
  | nil => exact hok l menuItems (Quiet.refl l) (List.Subset.refl _) (by simp [Covers])
  | cons line lines ih =>
    simp only [Customer.validateItems, bind_assoc]
    refine query fun σ hi ha => ⟨_, ha, ?_⟩
    have hq (r) : Quiet l (l ++ [σ.event t (.query (.menuItem line.menuItemId restaurantId)) r σ.data]) :=
      (Quiet.refl l).snoc rfl
    rw [Query.eval]
    cases hrow : σ.catalog.menuItems.find? fun m =>
        m.id == line.menuItemId && m.restaurantId == restaurantId && m.isActive with
    | none => exact .raise (herr _ _ (hq _) trivial)
    | some row =>
      have hid : row.id = line.menuItemId := by
        have hp := List.find?_some hrow
        simp only [Bool.and_eq_true, beq_iff_eq] at hp
        exact hp.1.1
      dsimp only
      split
      · refine ih (fun l' m hq' hsub hc => hok l' m ((hq _).trans hq') ?_ ?_)
          fun l' e hq' => herr l' e ((hq _).trans hq')
        · refine List.Subset.trans ?_ hsub
          split
          · exact List.Subset.refl _
          · exact List.subset_append_left _ _
        · intro x hx
          rcases List.mem_cons.mp hx with rfl | hx
          · rw [← hid]
            exact covered hsub
          · exact hc x hx
      · exact .raise (herr _ _ (hq _) trivial)
theorem insertItems {o : Order} {rows : List NewItem} {f : Data → Action α}
    (ho : ∀ r ∈ rows, r.orderId = o.id ∧ r.restaurantId = o.restaurantId)
    (hok : ∀ items e, e.isCommit = false → items.length = rows.length →
      Triple owner req d₀ t (.ordering o items) (l ++ [e]) (f { items := items }) post)
    (herr : ∀ e l', Quiet l l' → post (.error (.db e)) .nothing l') :
    Triple owner req d₀ t (.ordering o []) l (Action.command (.insertItems rows) >>= f) post := by
  refine command ⟨_, rfl⟩ (fun σ hi ha _ _ => ?_) fun σ e _ _ => herr e _ ((Quiet.refl l).snoc rfl)
  have hnew := Data.newItems_new hi.below ho ha.valid.orderNew ha.valid.session
  refine ⟨.ordering o _, ?_, hnew, hok _ _ rfl (by simp)⟩
  simp [Sys.rows, Command.rows, Holding.writes, Data.overlay, Sys.ctx]

theorem commitOrder {o : Order} {items : List OrderItem} {tableSession : TableSession}
    {lastActivityAt : Timestamp} {f : Unit → Action α} {qrToken : String} {body : CreateOrderRequest}
    (hreq : req t = .createOrder qrToken body) (hk : o.tableSessionId = tableSession.id)
    (hseen : SeenOpen tableId tableSession.id l)
    (hload : ∃ e ∈ l, e.loads tableSession.id = some tableSession) (hopen : tableSession.status = .opened)
    (hread : ReadAppClock lastActivityAt l)
    (hok : ∀ l', l <+: l' → Placed owner (req t) l' o items →
      Triple owner req d₀ t .nothing l' (f ()) post)
    (herr : ∀ e l', Quiet l l' → post (.error (.db e)) .nothing l') :
    Triple owner req d₀ t (.ordering o items) l (do
      Customer.setLastActivity tableSession lastActivityAt
      Action.commit >>= f) post := by
  rw [Customer.setLastActivity]
  split
  · rename_i hsame
    have hj : Justified l (.ordering o items) (req t) := by
      rw [hreq, Justified, hk]
      obtain ⟨e, he, hs⟩ := hload
      exact ⟨⟨tableId, hseen⟩, e, he, tableSession, hs, hopen, hsame ▸ hread⟩
    refine commit trivial hj fun σ hi ha => hok _ (by simp) ?_
    exact ⟨_, _, [], _, rfl, .ordering, hj, rfl, hi.ok, ha.valid, trivial, rfl⟩
  simp only [bind_assoc]
  refine command ⟨o, items, rfl, hk⟩ (fun σ hi ha _ _ => ?_) fun σ e _ _ =>
    herr e _ ((Quiet.refl l).snoc rfl)
  obtain ⟨s, hs, hks, ht⟩ := hseen.session fun e he => hi.own_grows ha he
  have hrows := touch_rows hi.ok.sessionIds hs lastActivityAt
  refine ⟨.ordered o items s lastActivityAt, ?_, ⟨ha.valid, hks ▸ hs, hk.trans hks.symm⟩, ?_⟩
  · rw [Sys.rows, ha.view]
    simp [Command.rows, Holding.writes, Data.overlay, hrows]
  have hj : Justified (l ++ [σ.event t (.command (.setLastActivity tableSession.id lastActivityAt))
      (.ok (σ.rows t (.setLastActivity tableSession.id lastActivityAt))) σ.data])
      (.ordered o items s lastActivityAt) (req t) := by
    rw [hreq]
    refine ⟨?_, ⟨_, List.mem_append_right _ List.mem_cons_self, ?_, rfl, hks ▸ hs⟩, hread.append _⟩
    · rw [hks, ht]
      exact hseen.append rfl
    · rw [hks]
      rfl
  refine commit trivial hj fun σ₁ hi₁ ha₁ => hok _ (by simp [List.append_assoc]) ?_
  exact ⟨_, _, [], _, rfl, .ordered s lastActivityAt, hj, rfl, hi₁.ok, ha₁.valid, trivial, rfl⟩

theorem placeOrder {restaurantId : Uuid} {tableSession : TableSession} {menuItems : List MenuItem}
    {lines : List CreateOrderItemRequest} {f : Order × List OrderItem → Action α} {qrToken : String}
    {body : CreateOrderRequest} (hreq : req t = .createOrder qrToken body)
    (hseen : SeenOpen tableId tableSession.id l)
    (hload : ∃ e ∈ l, e.loads tableSession.id = some tableSession) (hopen : tableSession.status = .opened)
    (hown : restaurantId = owner tableId) (hcov : Covers menuItems lines) (hlines : lines ≠ [])
    (hok : ∀ (order : Order) items l', l <+: l' → Placed owner (req t) l' order items → items ≠ [] →
      order.tableSessionId = tableSession.id → order.restaurantId = restaurantId →
      Triple owner req d₀ t .nothing l' (f (order, items)) post)
    (herr : ∀ e l', Quiet l l' → post (.error (.db e)) .nothing l') :
    Triple owner req d₀ t .nothing l
      (Customer.placeOrder restaurantId tableSession menuItems lines >>= f) post := by
  simp only [Customer.placeOrder, bind_assoc]
  refine appNow fun σ₀ _ _ => ?_
  have hq₀ := (Quiet.refl l).snoc (e := σ₀.event t .appNow (.ok σ₀.appClock) σ₀.data) rfl
  have hread : ReadAppClock σ₀.appClock (l ++ [σ₀.event t .appNow (.ok σ₀.appClock) σ₀.data]) :=
    ⟨_, List.mem_append_right _ List.mem_cons_self, rfl, rfl⟩
  refine command rfl (fun σ hi ha _ _ => ?_) fun σ e _ _ => herr e _ (hq₀.snoc rfl)
  obtain ⟨s, hs, -, ht⟩ := (hq₀.seenOpen hseen).session fun e he => hi.own_grows ha he
  have hrest : s.restaurantId = restaurantId := by
    rw [hi.ok.restaurant s (mem_of_lookup hs), ht, hown]
  have hrows : σ.rows t (.insertOrder restaurantId tableSession.id) =
      { orders := [⟨σ.nextUuid, restaurantId, tableSession.id, σ.now t⟩] } := rfl
  have hnew : σ.data.NewOrder ⟨σ.nextUuid, restaurantId, tableSession.id, σ.now t⟩ [] :=
    Data.newItems_new hi.below (by simp : ∀ r ∈ ([] : List NewItem), _) hi.below.new_order ⟨s, hs, hrest⟩
  refine ⟨.ordering _ [], (empty_overlay _).symm, hnew, ?_⟩
  rw [hrows]
  simp only [List.head?_cons, Action.scalarOne, Prog.pure_def, Prog.ret_bind]
  refine insertItems newItems_order (fun items e he hlen => ?_) fun e l' hq =>
    herr e l' ((hq₀.snoc rfl).trans hq)
  have hq₁ := (hq₀.snoc (e := σ.event t (.command (.insertOrder restaurantId tableSession.id))
    (.ok { orders := [⟨σ.nextUuid, restaurantId, tableSession.id, σ.now t⟩] }) σ.data) rfl).snoc he
  obtain ⟨e₀, he₀, hs₀⟩ := hload
  refine commitOrder hreq rfl (hq₁.seenOpen hseen) ⟨e₀, hq₁.ext.subset he₀, hs₀⟩ hopen
    ((hread.append _).append _) (fun l' hl hp => ?_) fun e l' hq => herr e l' (hq₁.trans hq)
  refine hok _ items l' (hq₁.ext.trans hl) hp ?_ rfl rfl
  rintro rfl
  exact newItems_ne_nil hcov hlines (List.eq_nil_of_length_eq_zero hlen.symm)

theorem refreshItems {items : List OrderItem} {f : List OrderItem → Action α}
    (hs : ∃ e ∈ l, ∀ i ∈ items, (lookup i.id e.after.items).isSome)
    (hk : ∀ l' items', Quiet l l' → items'.map OrderItem.id = items.map OrderItem.id →
      Triple owner req d₀ t .nothing l' (f items') post) :
    Triple owner req d₀ t .nothing l (Customer.refreshItems items >>= f) post := by
  induction items generalizing l f with
  | nil => exact hk l [] (Quiet.refl l) rfl
  | cons item items ih =>
    simp only [Customer.refreshItems, bind_assoc]
    refine query fun σ hi ha => ⟨_, ha, ?_⟩
    obtain ⟨e, he, hsome⟩ := hs
    obtain ⟨i, hi'⟩ := Option.isSome_iff_exists.mp (hsome item List.mem_cons_self)
    obtain ⟨i', hi', -⟩ := (hi.own_grows ha he).item hi'
    have hid : i'.id = item.id := key_of_lookup hi'
    rw [ha.view_nothing, Query.eval, hi']
    simp only [Action.scalarOne, Prog.pure_def, Prog.ret_bind]
    refine ih ⟨e, List.mem_append_left _ he, fun x hx => hsome x (List.mem_cons_of_mem _ hx)⟩ ?_
    intro l' items' hq hids
    exact hk l' _ (((Quiet.refl l).snoc rfl).trans hq) (by simp [hid, hids])

end Triple

end QOrder
