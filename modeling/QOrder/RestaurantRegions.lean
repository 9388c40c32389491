import QOrder.TableRegions

/-! A restaurant as a region of the data: its rows are told by their `restaurant_id`, and in
every reachable state those of a session, its orders, their items and its calls agree. -/

namespace QOrder

open KeyedTable Concurrency

variable {owner owner' : Uuid → Uuid} {R : Uuid} {c c' : Catalog} {d d' : Data} {new : Uuid → Bool}

/-- The rows of the restaurants that satisfy `P`. -/
def Data.select (d : Data) (P : Uuid → Bool) : Data where
  sessions := d.sessions.filter fun s => P s.restaurantId
  orders := d.orders.filter fun o => P o.restaurantId
  items := d.items.filter fun i => P i.restaurantId
  calls := d.calls.filter fun x => P x.restaurantId

def Catalog.select (c : Catalog) (P : Uuid → Bool) : Catalog where
  restaurants := c.restaurants.filter fun r => P r.id
  settings := c.settings.filter fun rs => P rs.restaurantId
  tables := c.tables.filter fun t => P t.restaurantId
  menuItems := c.menuItems.filter fun m => P m.restaurantId

/-- `uq_tables_qr_token` -/
def Catalog.UniqueTokens (c : Catalog) : Prop := (c.tables.map Table.qrToken).Nodup

/-- The request acts for the restaurant: that of its token's table, or of its JWT. -/
def Request.ActsFor (c : Catalog) (R : Uuid) : Request → Prop
  | getSessionSnapshot q | createOrder q _ | cancelItemCustomer q _ _ | callStaff q | wsCustomer q =>
    ∃ t, c.activeTable q = some t ∧ t.restaurantId = R
  | openTable user _ | setItemStatus user _ _ | cancelItemStaff user _ _ | ackStaffCall user _
  | checkoutSession user _ | restoreSession user _ => user.restaurantId = R
  | runSweep | abandonSession _ => False

/-- The restaurants of the rows agree along their references. -/
structure Data.Chained (owner : Uuid → Uuid) (d : Data) : Prop where
  ok : d.Ok owner
  tenanted : d.Tenanted
  seated : d.Seated

theorem Deployment.Reaches.chained {n : Nat} {req : Fin n → Request} {D : Deployment owner} {p : Clients n}
    (hr : D.Reaches req p) (h₀ : D.data.Tenanted) (h₁ : D.data.Seated) : p.state.data.Chained owner :=
  ⟨hr.inv.ok, (hr.tenanted h₀).2, hr.seated h₁⟩

/-- The two states have the same rows of the restaurant. -/
structure Agree (R : Uuid) (owner owner' : Uuid → Uuid) (c c' : Catalog) (d d' : Data) : Prop where
  owner : ∀ t, owner' t = R ↔ owner t = R
  catalog : c'.select (· == R) = c.select (· == R)
  data : d'.select (· == R) = d.select (· == R)

theorem Agree.refl (R : Uuid) (owner : Uuid → Uuid) (c : Catalog) (d : Data) : Agree R owner owner c c d d :=
  ⟨fun _ => Iff.rfl, rfl, rfl⟩

section Rows

variable {V : Type} {rows rows' : List V} {f : V → Uuid}

/-- A row that is looked for by its restaurant is found in either table. -/
theorem find_agree (h : rows'.filter (fun r => f r == R) = rows.filter fun r => f r == R)
    {P : V → Bool} (hP : ∀ r, P r = true → f r = R) : rows'.find? P = rows.find? P := by
  have own (l : List V) : (l.filter fun r => f r == R).find? P = l.find? P := by
    have hp : ∀ r, ((f r == R) = true ∧ P r = true) = (P r = true) := by
      intro r
      exact propext ⟨And.right, fun h => ⟨beq_iff_eq.mpr (hP r h), h⟩⟩
    simp only [List.find?_filter, hp, Bool.decide_eq_true]
  rw [← own rows', h, own rows]

theorem mem_agree (h : rows'.filter (fun r => f r == R) = rows.filter fun r => f r == R) {r : V}
    (hr : r ∈ rows) (hf : f r = R) : r ∈ rows' := by
  have hm : r ∈ rows.filter fun r => f r == R := List.mem_filter.mpr ⟨hr, beq_iff_eq.mpr hf⟩
  rw [← h] at hm
  exact (List.mem_filter.mp hm).1

/-- An id is one of the restaurant's rows if the row with the id is. -/
theorem any_own [Keyed V Uuid] (h : rows'.filter (fun r => f r == R) = rows.filter fun r => f r == R)
    (hn : UniqueKeys rows') {r : V} (hr : r ∈ rows') :
    (rows.any fun x => key x == key r && f x == R) = (f r == R) := by
  by_cases hf : f r = R
  · rw [beq_iff_eq.mpr hf, List.any_eq_true]
    exact ⟨r, mem_agree h.symm hr hf, by simp [hf]⟩
  · rw [beq_eq_false_iff_ne.mpr hf, List.any_eq_false]
    intro x hx hp
    simp only [Bool.and_eq_true, beq_iff_eq] at hp
    have he := eq_of_key_eq hn (mem_agree h hx hp.2) hr hp.1
    exact hf (he ▸ hp.2)

end Rows

/-- The rows of the restaurant, and all others. Ids that satisfy `new` are the restaurant's. -/
def restaurantAtlas (owner : Uuid → Uuid) (R : Uuid) (c : Catalog) (d : Data) (new : Uuid → Bool) :
    Atlas Bool where
  table t := owner t == R
  session k := (d.sessions.any fun s => s.id == k && s.restaurantId == R) || new k
  order k := (d.orders.any fun o => o.id == k && o.restaurantId == R) || new k
  item k := (d.items.any fun i => i.id == k && i.restaurantId == R) || new k
  call k := (d.calls.any fun x => x.id == k && x.restaurantId == R) || new k
  restaurant rid := some (rid == R)
  token q z := z = true ∧ ∃ t ∈ c.tables, t.qrToken = q ∧ t.isActive = true ∧ t.restaurantId = R
  dish _ _ := True

section Atlas

theorem near_own {rid : Uuid} {z : Bool} : (restaurantAtlas owner R c d new).Near rid z ↔ (rid == R) = z := by
  refine ⟨fun h => h _ rfl, ?_⟩
  rintro rfl x hx
  cases hx
  rfl

/-- No row of the data has one of the new ids. -/
structure Data.Fresh (d : Data) (new : Uuid → Bool) : Prop where
  sessions : ∀ s ∈ d.sessions, new s.id = false
  orders : ∀ o ∈ d.orders, new o.id = false
  items : ∀ i ∈ d.items, new i.id = false
  calls : ∀ x ∈ d.calls, new x.id = false

theorem Data.Below.fresh {k : Uuid} (hd : d.Below k) (hnew : ∀ id, new id = true → k ≤ id) : d.Fresh new := by
  have old {id : Uuid} (h : id < k) : new id = false := by
    rw [← Bool.not_eq_true]
    intro hn
    exact absurd ((hnew id hn).trans_lt h) (lt_irrefl _)
  exact ⟨fun s h => old (hd.sessions s h), fun o h => old (hd.orders o h), fun i h => old (hd.items i h),
    fun x h => old (hd.calls x h)⟩

theorem Agree.placed (h : Agree R owner owner' c c' d d') (hd : d'.Chained owner') (hf : d'.Fresh new) :
    d'.Placed (restaurantAtlas owner R c d new) := by
  have label {b x n : Bool} (hb : b = x) (hn : n = false) : (b || n) = x := by rw [hb, hn, Bool.or_false]
  have hsession {s : TableSession} (hs : s ∈ d'.sessions) :
      (restaurantAtlas owner R c d new).session s.id = (s.restaurantId == R) := by
    have he := any_own (f := TableSession.restaurantId) (congrArg Data.sessions h.data) hd.ok.sessionIds hs
    exact label he (hf.sessions s hs)
  have horder {o : Order} (ho : o ∈ d'.orders) :
      (restaurantAtlas owner R c d new).order o.id = (o.restaurantId == R) := by
    have he := any_own (f := Order.restaurantId) (congrArg Data.orders h.data) hd.ok.orderIds ho
    exact label he (hf.orders o ho)
  have hitem {i : OrderItem} (hi : i ∈ d'.items) :
      (restaurantAtlas owner R c d new).item i.id = (i.restaurantId == R) := by
    have he := any_own (f := OrderItem.restaurantId) (congrArg Data.items h.data) hd.ok.itemIds hi
    exact label he (hf.items i hi)
  have hcall {x : StaffCall} (hx : x ∈ d'.calls) :
      (restaurantAtlas owner R c d new).call x.id = (x.restaurantId == R) := by
    have he := any_own (f := StaffCall.restaurantId) (congrArg Data.calls h.data) hd.ok.callIds hx
    exact label he (hf.calls x hx)
  have htable (t : Uuid) : (restaurantAtlas owner R c d new).table t = (owner' t == R) := by
    rw [Bool.eq_iff_iff, beq_iff_eq, h.owner t]
    exact beq_iff_eq
  constructor
  · intro s hs
    rw [hsession hs, htable, ← hd.ok.restaurant s hs]
    exact ⟨rfl, near_own.mpr rfl⟩
  · intro o ho
    obtain ⟨s, hs, hr⟩ := hd.tenanted.order (hd.ok.mem_orders.mp ho)
    have hk : s.id = o.tableSessionId := key_of_lookup hs
    rw [horder ho, ← hk, hsession (mem_of_lookup hs), hr]
    exact ⟨rfl, near_own.mpr rfl⟩
  · intro i hi
    obtain ⟨o, ho, hr⟩ := hd.tenanted.item (hd.ok.mem_items.mp hi)
    have hk : o.id = i.orderId := key_of_lookup ho
    rw [hitem hi, ← hk, horder (mem_of_lookup ho), hr]
    exact ⟨rfl, near_own.mpr rfl, trivial⟩
  · intro x hx
    obtain ⟨s, hs, hr⟩ := hd.ok.callSession x hx
    obtain ⟨s', hs', ht⟩ := hd.seated x hx
    rw [hs] at hs'
    cases hs'
    have hk : s.id = x.tableSessionId := key_of_lookup hs
    rw [hcall hx, ← hk, hsession (mem_of_lookup hs), htable, ← ht,
      ← hd.ok.restaurant s (mem_of_lookup hs), hr]
    exact ⟨rfl, rfl, near_own.mpr rfl⟩

/-- The token of a table leads to it. -/
theorem Catalog.UniqueTokens.activeTable (hu : c.UniqueTokens) {t : Table} (ht : t ∈ c.tables)
    (ha : t.isActive = true) : c.activeTable t.qrToken = some t := by
  cases hf : c.activeTable t.qrToken with
  | none =>
    have hn := List.find?_eq_none.mp hf t ht
    simp [ha] at hn
  | some t' =>
    have hp := List.find?_some hf
    simp only [Bool.and_eq_true, beq_iff_eq] at hp
    rw [List.inj_on_of_nodup_map hu (List.mem_of_find?_eq_some hf) ht hp.1]

theorem Agree.charted (h : Agree R owner owner' c c' d d') (ho : c'.Owned owner') (hu : c'.UniqueTokens) :
    c'.Charted (restaurantAtlas owner R c d new) true where
  token := by
    rintro q t ⟨-, t₀, ht₀, rfl, ha, hr⟩ ht
    have hm := mem_agree (congrArg Catalog.tables h.catalog) ht₀ hr
    rw [hu.activeTable hm ha] at ht
    cases ht
    refine ⟨?_, near_own.mpr (beq_iff_eq.mpr hr)⟩
    exact beq_iff_eq.mpr ((h.owner _).mp ((ho t hm).symm.trans hr))
  table t ht := by
    rw [near_own, ho t ht, Bool.eq_iff_iff, beq_iff_eq, h.owner]
    exact beq_iff_eq.symm
  menuItem _ _ := trivial

theorem Agree.alike (h : Agree R owner owner' c c' d d') (ho : c.Owned owner) (ho' : c'.Owned owner')
    (hu : c.UniqueTokens) (hu' : c'.UniqueTokens) :
    c.Alike (restaurantAtlas owner R c d new) true c' := by
  intro q hq ctx x
  cases q with
  | tableByToken q =>
    obtain ⟨-, t, ht, rfl, ha, hr⟩ := hq
    have hm := mem_agree (congrArg Catalog.tables h.catalog) ht hr
    exact (hu'.activeTable hm ha).trans (hu.activeTable ht ha).symm
  | tableOf t rid =>
    by_cases hr : rid = R
    · refine find_agree (f := Table.restaurantId) (congrArg Catalog.tables h.catalog) fun x hx => ?_
      simp only [Bool.and_eq_true, beq_iff_eq] at hx
      exact hx.2.trans hr
    · have hown : owner t = R := by
        rcases hq with hq | hq
        · exact beq_iff_eq.mp hq
        · exact absurd (beq_iff_eq.mp (Option.some.inj hq)) hr
      have nothing {c : Catalog} {owner : Uuid → Uuid} (ho : c.Owned owner) (hown : owner t = R) :
          (c.tables.find? fun x => x.id == t && x.restaurantId == rid) = none := by
        rw [List.find?_eq_none]
        intro x hx hp
        simp only [Bool.and_eq_true, beq_iff_eq] at hp
        have he := ho x hx
        rw [hp.1, hp.2, hown] at he
        exact hr he
      exact (nothing ho' ((h.owner t).mpr hown)).trans (nothing ho hown).symm
  | activeRestaurant rid =>
    have hr : rid = R := beq_iff_eq.mp (near_own.mp hq)
    refine find_agree (f := Restaurant.id) (congrArg Catalog.restaurants h.catalog) fun x hx => ?_
    simp only [Bool.and_eq_true, beq_iff_eq] at hx
    exact hx.1.trans hr
  | menuItem k rid =>
    have hr : rid = R := beq_iff_eq.mp (near_own.mp hq)
    refine find_agree (f := MenuItem.restaurantId) (congrArg Catalog.menuItems h.catalog) fun x hx => ?_
    simp only [Bool.and_eq_true, beq_iff_eq] at hx
    exact hx.1.2.trans hr
  | cooldown rid =>
    have hr : rid = R := beq_iff_eq.mp (near_own.mp hq)
    refine congrArg (Option.map _) (find_agree (f := RestaurantSettings.restaurantId)
      (congrArg Catalog.settings h.catalog) fun x hx => ?_)
    exact (beq_iff_eq.mp hx).trans hr
  | staleSessions => exact hq.elim
  | _ => rfl

/-- The region of the restaurant holds its rows. -/
theorem Data.Placed.select (hd : d'.Placed (restaurantAtlas owner R c d new)) (z : Bool) :
    d'.part (restaurantAtlas owner R c d new) z = d'.select fun rid => (rid == R) == z := by
  have hs := List.filter_congr (l := d'.sessions) fun s hs =>
    congrArg (· == z) (near_own.mp (hd.session s hs).2).symm
  have ho := List.filter_congr (l := d'.orders) fun o ho =>
    congrArg (· == z) (near_own.mp (hd.order o ho).2).symm
  have hi := List.filter_congr (l := d'.items) fun i hi =>
    congrArg (· == z) (near_own.mp (hd.item i hi).2.1).symm
  have hc := List.filter_congr (l := d'.calls) fun x hx =>
    congrArg (· == z) (near_own.mp (hd.call x hx).2.2).symm
  exact congr (congr (congr (congrArg Data.mk hs) ho) hi) hc

theorem Request.ActsFor.within {r : Request} (h : r.ActsFor c R) :
    r.Within (restaurantAtlas owner R c d new) true := by
  have token {q : String} (h : ∃ t, c.activeTable q = some t ∧ t.restaurantId = R) :
      (restaurantAtlas owner R c d new).token q true := by
    obtain ⟨t, ht, hr⟩ := h
    have hp := List.find?_some ht
    simp only [Bool.and_eq_true, beq_iff_eq] at hp
    exact ⟨rfl, t, List.mem_of_find?_eq_some ht, hp.1, hp.2, hr⟩
  have held {user : TokenPayload} (h : user.restaurantId = R) (label : Bool) :
      (restaurantAtlas owner R c d new).Held label user.restaurantId true :=
    .inr (congrArg some (beq_iff_eq.mpr h))
  cases r with
  | getSessionSnapshot q | createOrder q body | cancelItemCustomer q k reason | callStaff q
  | wsCustomer q => exact token h
  | openTable user t => exact ⟨held h _, near_own.mpr (beq_iff_eq.mpr h)⟩
  | setItemStatus user k toStatus | cancelItemStaff user k reason | ackStaffCall user k
  | checkoutSession user k | restoreSession user k => exact held h _
  | runSweep => exact h
  | abandonSession k => exact h

end Atlas

end QOrder
