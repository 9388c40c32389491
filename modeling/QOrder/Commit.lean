import QOrder.Holding

/-! A complete holding that is valid for consistent data commits to consistent data. -/

namespace QOrder

open KeyedTable

namespace OrderItem.Move

variable {now : Timestamp} {i i' : OrderItem}

theorem id_eq (h : i.Move now i') : i'.id = i.id := by cases h <;> rfl

theorem orderId_eq (h : i.Move now i') : i'.orderId = i.orderId := by cases h <;> rfl

theorem restaurantId_eq (h : i.Move now i') : i'.restaurantId = i.restaurantId := by
  cases h <;> rfl

theorem amount_eq (h : i.Move now i') : i'.amount = i.amount := by cases h <;> rfl

theorem columns (h : i.Move now i') (hi : i.Columns) : i'.Columns := by
  cases h with
  | cook h =>
    have hs := hi.servedAt
    have hc := hi.cancelledBy
    have ha := hi.cancelledAt
    exact ⟨by simp_all, fun _ => hi.servedBy (by simp [h]), by simp_all, by simp_all⟩
  | ready h =>
    have hn : i.status ≠ .served ∧ i.status ≠ .cancelled := by rcases h with h | h <;> simp [h]
    have hs := hi.servedAt
    have hc := hi.cancelledBy
    have ha := hi.cancelledAt
    exact ⟨by simp_all, fun _ => hi.servedBy hn.1, by simp_all, by simp_all⟩
  | serve actorUserId h =>
    have hn : i.status ≠ .cancelled := by
      intro he
      simp [isUnserved, OrderItemStatus.unserved, he] at h
    have hc := hi.cancelledBy
    have ha := hi.cancelledAt
    exact ⟨by simp, by simp, by simp_all, by simp_all⟩
  | undo h hu =>
    have hc := hi.cancelledBy
    have ha := hi.cancelledAt
    exact ⟨by simp, by simp, by simp_all, by simp_all⟩
  | cancel cancelledBy cancelReason h =>
    have hn : i.status ≠ .served := by
      intro he
      simp [isUnserved, OrderItemStatus.unserved, he] at h
    have hs := hi.servedAt
    exact ⟨by simp_all, fun _ => hi.servedBy hn, by simp, by simp⟩

end OrderItem.Move

namespace Data

variable {owner : Uuid → Uuid} {d : Data} {now : Timestamp} {k : Uuid} {reason : String}

theorem mem_cancelledItems {w : OrderItem} : w ∈ d.cancelledItems k now reason ↔
    ∃ i ∈ d.itemsOf k, i.isUnserved = true ∧ i.cancel .system now (some reason) = w :=
  mem_changed

theorem cancelUnserved_move {items : List OrderItem} {w : OrderItem} (h : w ∈ cancelUnserved now reason items) :
    ∃ i ∈ items, i.isUnserved = true ∧ i.Move now w := by
  obtain ⟨i, hi, hu, rfl⟩ := mem_changed.mp h
  exact ⟨i, hi, hu, .cancel _ _ hu⟩

theorem ItemsSince.refl (d : Data) (k : Uuid) : d.ItemsSince k (d.itemsOf k) :=
  ⟨[], (List.append_nil _).symm, by simp⟩

theorem ItemsSince.subset {items : List OrderItem} (h : d.ItemsSince k items) : items ⊆ d.itemsOf k := by
  obtain ⟨late, he, -⟩ := h
  rw [he]
  exact List.subset_append_left _ _

theorem Ok.itemsOf_ids (hd : d.Ok owner) : UniqueKeys (d.itemsOf k) :=
  hd.itemIds.sublist (List.filter_sublist.map key)

theorem ItemsSince.ids {items : List OrderItem} (h : d.ItemsSince k items) (hd : d.Ok owner) :
    UniqueKeys items := by
  obtain ⟨late, he, -⟩ := h
  have hids := hd.itemsOf_ids (k := k)
  rw [he] at hids
  exact hids.sublist ((List.sublist_append_left _ _).map key)

theorem ItemsSince.cancelUnserved_ids {items : List OrderItem} (h : d.ItemsSince k items) (hd : d.Ok owner) :
    UniqueKeys (cancelUnserved now reason items) := by
  have hf (i : OrderItem) : key (i.cancel .system now (some reason)) = key i := rfl
  exact uniqueKeys_changed hf (h.ids hd)

theorem mem_pendingCalls {rid : Uuid} {c : StaffCall} : c ∈ d.pendingCalls k rid ↔
    c ∈ d.calls ∧ c.tableSessionId = k ∧ c.restaurantId = rid ∧ c.status = .pending := by
  simp [pendingCalls, and_assoc]

theorem mem_dismissedCalls {rid : Uuid} {w : StaffCall} : w ∈ d.dismissedCalls k rid now ↔
    ∃ c ∈ d.pendingCalls k rid, c.dismiss now = w := by
  simp [dismissedCalls]

theorem Ok.dismissedCalls_ids (hd : d.Ok owner) {rid : Uuid} :
    UniqueKeys (d.dismissedCalls k rid now) := by
  have he : (d.dismissedCalls k rid now).map key = (d.pendingCalls k rid).map key := by
    simp [dismissedCalls]
  rw [UniqueKeys, he]
  exact hd.callIds.sublist (List.filter_sublist.map key)

/-- A version of one session, new or not, that consistent data can take. -/
structure FitsSession (owner : Uuid → Uuid) (d : Data) (s : TableSession) : Prop where
  restaurant : s.restaurantId = owner s.tableId
  columns : s.Columns
  table : ∀ r, lookup s.id d.sessions = some r → s.tableId = r.tableId
  oneOpen : s.status = .opened → ∀ r ∈ d.sessions, r.status = .opened →
    r.tableId = s.tableId → r.id = s.id

theorem FitsSession.oneOpen_overlay {s r : TableSession} {ws : List TableSession}
    (h : d.FitsSession owner s) (hws : ws = [s]) (hr : r ∈ KeyedTable.overlay d.sessions ws)
    (hd : d.Ok owner) (hs : s.status = .opened) (hro : r.status = .opened)
    (ht : r.tableId = s.tableId) : r = s := by
  subst hws
  rcases (mem_overlay hd.sessionIds (by simp)).mp hr with hr | ⟨hr, hn⟩
  · simpa using hr
  · have he := h.oneOpen hs r hr hro ht
    simp [lookup_singleton, he] at hn

/-- The fields of `Fits` that a write set with a single session row answers for. -/
theorem FitsSession.fits {s : TableSession} {orders : List Order} {items : List OrderItem}
    {calls : List StaffCall} (hd : d.Ok owner) (h : d.FitsSession owner s)
    (horders : orders = [] ∨ ∃ o, orders = [o] ∧ lookup o.id d.orders = none ∧
      o.tableSessionId = s.id)
    (hitemIds : UniqueKeys items) (hcallIds : UniqueKeys calls)
    (hitems : ∀ i ∈ items, i.Columns ∧ (∀ r, lookup i.id d.items = some r → i.orderId = r.orderId) ∧
      (lookup i.orderId (KeyedTable.overlay d.orders orders)).isSome)
    (hcalls : ∀ c ∈ calls, c.tableSessionId = s.id ∧ c.restaurantId = s.restaurantId ∧
      ∀ r, lookup c.id d.calls = some r → c.tableSessionId = r.tableSessionId) :
    d.Fits owner ⟨[s], orders, items, calls⟩ where
  sessionIds := by simp
  orderIds := by rcases horders with rfl | ⟨o, rfl, -⟩ <;> simp
  itemIds := hitemIds
  callIds := hcallIds
  restaurant := by simpa using h.restaurant
  sessionColumns := by simpa using h.columns
  itemColumns i hi := (hitems i hi).1
  sessionTable := by simpa using h.table
  orderNew := by
    rcases horders with rfl | ⟨o, rfl, hn, -⟩
    · simp
    · simpa using hn
  orderSession := by
    rcases horders with rfl | ⟨o, rfl, -, hk⟩
    · simp
    · simp [lookup_singleton, hk]
  itemKept i hi := (hitems i hi).2.1
  itemOrder i hi := (hitems i hi).2.2
  callKept c hc := (hcalls c hc).2.2
  callSession c hc := ⟨s, by simp [lookup_singleton, (hcalls c hc).1], (hcalls c hc).2.1.symm⟩
  oneOpen s' hs' r hr hso hro ht := by
    obtain rfl : s' = s := by simpa using hs'
    exact h.oneOpen_overlay rfl hr hd hso hro ht

end Data

namespace Holding

open Data

variable {owner : Uuid → Uuid} {d : Data} {now : Timestamp}

theorem fits_touch (hd : d.Ok owner) {s : TableSession} (hs : lookup s.id d.sessions = some s)
    (at_ : Timestamp) : d.FitsSession owner (s.touch at_) where
  restaurant := hd.restaurant s (mem_of_lookup hs)
  columns := hd.sessionColumns s (mem_of_lookup hs)
  table r hr := by
    rw [TableSession.touch_id, hs] at hr
    cases hr
    rfl
  oneOpen ho r hr hro ht := by
    rw [hd.oneOpen s (mem_of_lookup hs) r hr ho hro ht, TableSession.touch_id]

theorem fits_opening {s : TableSession} (h : d.NewSession owner now s) : d.FitsSession owner s where
  restaurant := h.restaurant
  columns := h.columns
  table r hr := by
    rw [h.new] at hr
    cases hr
  oneOpen _ r hr hro ht := absurd hro (h.noOpen r hr ht)

theorem fits_reopening (hd : d.Ok owner) {s : TableSession}
    (h : (reopening s).Valid owner now d) : d.FitsSession owner (s.reopen now) where
  restaurant := hd.restaurant s (mem_of_lookup h.1)
  columns := by
    have hc := hd.sessionColumns s (mem_of_lookup h.1)
    simp only [TableSession.Columns, h.2.1] at hc
    simp [TableSession.Columns, hc]
  table r hr := by
    rw [TableSession.reopen_id, h.1] at hr
    cases hr
    rfl
  oneOpen _ r hr hro ht := absurd hro (h.2.2 r hr ht)

theorem fits_leaving (hd : d.Ok owner) {s : TableSession} {items : List OrderItem} {kind : Leave}
    (h : (leaving s items kind .dismissed).Valid owner now d) :
    d.FitsSession owner (kind.row now d s .dismissed) where
  restaurant := by cases kind <;> exact hd.restaurant s (mem_of_lookup h.1)
  columns := by
    have hc := hd.sessionColumns s (mem_of_lookup h.1)
    cases kind with
    | close => simp [TableSession.Columns, Leave.row]
    | abandon =>
      rcases h.2.1 with ho | ⟨-, he⟩
      · simp only [TableSession.Columns, ho] at hc
        simp [TableSession.Columns, Leave.row, hc]
      · cases he
  table r hr := by
    have hk : (kind.row now d s .dismissed).id = s.id := by cases kind <;> rfl
    rw [hk, h.1] at hr
    cases hr
    cases kind <;> rfl
  oneOpen ho := by cases kind <;> simp [Leave.row] at ho

theorem fits (hd : d.Ok owner) {h : Holding} (hv : h.Valid owner now d) (hc : h.Complete) :
    d.Fits owner (h.writes now d) := by
  cases h with
  | opening s => exact (fits_opening hv).fits hd (.inl rfl) (by simp) (by simp) (by simp) (by simp)
  | reopening s =>
    exact (fits_reopening hd hv).fits hd (.inl rfl) (by simp) (by simp) (by simp) (by simp)
  | leaving s items kind stage =>
    obtain rfl : stage = .dismissed := by cases stage <;> simp_all [Complete]
    have hk : (kind.row now d s .dismissed).id = s.id ∧
        (kind.row now d s .dismissed).restaurantId = s.restaurantId := by cases kind <;> exact ⟨rfl, rfl⟩
    have hsince := hv.2.2
    refine (fits_leaving hd hv).fits hd (.inl rfl) (hsince.cancelUnserved_ids hd) hd.dismissedCalls_ids ?_ ?_
    · intro w hw
      obtain ⟨i, hi, -, hm⟩ := cancelUnserved_move hw
      have hi' := (mem_itemsOf.mp (hsince.subset hi)).1
      refine ⟨hm.columns (hd.itemColumns i hi'), fun r hr => ?_, ?_⟩
      · rw [hm.id_eq, hd.mem_items.mp hi'] at hr
        cases hr
        exact hm.orderId_eq
      · simpa [hm.orderId_eq] using hd.itemOrder i hi'
    · intro w hw
      obtain ⟨c, hc, rfl⟩ := mem_dismissedCalls.mp hw
      obtain ⟨hc, hs, hr, -⟩ := mem_pendingCalls.mp hc
      refine ⟨hs.trans hk.1.symm, hr.trans hk.2.symm, fun r hr => ?_⟩
      rw [StaffCall.dismiss_id, hd.mem_calls.mp hc] at hr
      cases hr
      rfl
  | moved i i' s =>
    obtain ⟨hi, hm, hs, -⟩ := hv
    refine (fits_touch hd hs now).fits hd (.inl rfl) (by simp) (by simp) ?_ (by simp)
    simp only [List.mem_singleton, forall_eq]
    refine ⟨hm.columns (hd.itemColumns i (mem_of_lookup hi)), fun r hr => ?_, ?_⟩
    · rw [hm.id_eq, hi] at hr
      cases hr
      exact hm.orderId_eq
    · simpa [hm.orderId_eq] using hd.itemOrder i (mem_of_lookup hi)
  | ordered o items s lastActivityAt =>
    obtain ⟨hn, hs, hk⟩ := hv
    refine (fits_touch hd hs lastActivityAt).fits hd (.inr ⟨o, rfl, hn.orderNew, hk⟩) hn.itemIds
      (by simp) ?_ (by simp)
    intro i hi
    refine ⟨hn.columns i hi, fun r hr => ?_, ?_⟩
    · rw [hn.itemNew i hi] at hr
      cases hr
    · simp [lookup_singleton, hn.itemOrder i hi]
  | ordering o items =>
    obtain ⟨s, hs, hr⟩ := hv.session
    have ho : lookup o.id (d.overlay ((ordering o items).writes now d)).orders = some o := by
      simp [writes, lookup_singleton]
    constructor
    case itemIds => exact hv.itemIds
    case itemColumns => exact hv.columns
    case orderNew => simpa [writes] using hv.orderNew
    case orderSession => simp [writes, hs]
    case itemKept =>
      intro i hi r hl
      rw [hv.itemNew i hi] at hl
      cases hl
    case itemOrder =>
      intro i hi
      rw [hv.itemOrder i hi, ho]
      rfl
    all_goals simp [writes]
  | calling s c =>
    refine (fits_touch hd hv.session now).fits hd (.inl rfl) (by simp) (by simp) (by simp) ?_
    simp only [List.mem_singleton, forall_eq]
    refine ⟨hv.tableSessionId, hv.restaurant.symm, fun r hr => ?_⟩
    rw [hv.new] at hr
    cases hr
  | acking c c' =>
    obtain ⟨hl, at_, by_, rfl⟩ := hv
    obtain ⟨s, hs, hr⟩ := hd.callSession c (mem_of_lookup hl)
    constructor <;> simp [writes, hl, hs, hr]
  | _ => exact absurd hc (by simp [Complete])

theorem commit_ok (hd : d.Ok owner) {h : Holding} (hv : h.Valid owner now d) (hc : h.Complete) :
    (d.overlay (h.writes now d)).Ok owner := hd.overlay (fits hd hv hc)

end Holding

end QOrder
