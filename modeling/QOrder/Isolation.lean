import QOrder.Commit
import QOrder.ReadCommitted

/-! What the row locks of one transaction keep from the others: while their write
sets share no row, the commit of one leaves the holding of the other valid. -/

namespace QOrder

open KeyedTable

theorem overlaps_eq_false {V : Type} [Keyed V Uuid] {rows locked : List V} :
    overlaps rows locked = false ↔ ∀ r ∈ rows, lookup (key r) locked = none := by
  simp [overlaps]

theorem overlaps_comm {V : Type} [Keyed V Uuid] {rows locked : List V}
    (h : overlaps rows locked = false) : overlaps locked rows = false := by
  rw [overlaps_eq_false] at h ⊢
  intro r hr
  rw [lookup_eq_none]
  intro r' hr' he
  exact lookup_eq_none.mp (h r' hr') r hr he.symm

namespace Data

variable {owner : Uuid → Uuid} {d w v : Data}

theorem overlaps_eq_false : w.overlaps v = false ↔
    (∀ s ∈ w.sessions, lookup s.id v.sessions = none) ∧
      (∀ o ∈ w.orders, lookup o.id v.orders = none) ∧
      (∀ i ∈ w.items, lookup i.id v.items = none) ∧
      ∀ c ∈ w.calls, lookup c.id v.calls = none := by
  simp [overlaps, QOrder.overlaps_eq_false, and_assoc]

theorem overlaps_comm (h : w.overlaps v = false) : v.overlaps w = false := by
  simp only [overlaps, Bool.or_eq_false_iff] at h ⊢
  obtain ⟨⟨⟨hs, ho⟩, hi⟩, hc⟩ := h
  exact ⟨⟨⟨QOrder.overlaps_comm hs, QOrder.overlaps_comm ho⟩, QOrder.overlaps_comm hi⟩,
    QOrder.overlaps_comm hc⟩

/-- The row version opens a session that is not open among the committed rows. -/
def Pending (d : Data) (r : TableSession) : Prop :=
  r.status = .opened ∧ ∀ s, lookup r.id d.sessions = some s → s.status ≠ .opened

theorem noOpen_overlay (hw : d.Fits owner w) {tableId : Uuid} (h : d.NoOpen tableId)
    (hp : ∀ r ∈ w.sessions, d.Pending r → r.tableId ≠ tableId) :
    (d.overlay w).NoOpen tableId := by
  intro r hr ht ho
  rcases mem_of_mem_overlay hr with hr | hr
  · by_cases hn : d.Pending r
    · exact hp r hr hn ht
    · simp only [Pending, ho, true_and, not_forall, not_not] at hn
      obtain ⟨s, hs, hso⟩ := hn
      exact h s (mem_of_lookup hs) ((hw.sessionTable r hr s hs).symm.trans ht) hso
  · exact h r hr ht ho

theorem servedTotal_append_pending {items late : List OrderItem} (hp : ∀ i ∈ late, i.status = .pending) :
    servedTotal (items ++ late) = servedTotal items := by
  have hnone : late.filter (fun i => i.status == .served) = [] := by
    refine List.filter_eq_nil_iff.mpr fun i hi => ?_
    simp [hp i hi]
  simp [servedTotal, hnone]

theorem ItemsSince.servedTotal {k : Uuid} {items : List OrderItem} (h : d.ItemsSince k items) :
    servedTotal (d.itemsOf k) = servedTotal items := by
  obtain ⟨late, he, hp⟩ := h
  rw [he, servedTotal_append_pending hp]

theorem pendingCalls_overlay {k rid : Uuid}
    (hkeep : ∀ c ∈ d.pendingCalls k rid, lookup c.id w.calls = none)
    (hnew : ∀ c ∈ w.calls, c.status = .pending → c.tableSessionId ≠ k) :
    (d.overlay w).pendingCalls k rid = d.pendingCalls k rid := by
  refine filter_overlay (fun _ _ _ => rfl) ?_ ?_
  · intro c hc hl
    by_contra hp
    exact hl (hkeep c (by simpa [pendingCalls, hc, and_assoc] using hp))
  · intro c hc
    by_contra hp
    simp only [Bool.not_eq_false, Bool.and_eq_true, beq_iff_eq] at hp
    exact hnew c hc hp.2 hp.1.1

end Data

namespace Holding

open Data

variable {owner : Uuid → Uuid} {d : Data} {now now' : Timestamp} {h h' : Holding}

/-- The commit adds an order to the session without having locked it. -/
def Joins (k : Uuid) : Holding → Prop
  | ordering o _ => o.tableSessionId = k
  | _ => False

theorem Joins.places {k : Uuid} (hj : h.Joins k) :
    ∃ o items, h = .ordering o items ∧ h.Places o items ∧ o.tableSessionId = k := by
  cases h with
  | ordering o items => exact ⟨o, items, rfl, .ordering, hj⟩
  | _ => exact hj.elim

/-- A transaction holds the session row of each item it commits, unless it is an order without
the lock. -/
theorem session_of_item (hd : d.Ok owner) (hv : h.Valid owner now d) (hc : h.Complete)
    {i : OrderItem} (hi : i ∈ (h.writes now d).items) :
    ∃ k, (d.overlay (h.writes now d)).inSession k i = true ∧
      (h.Joins k ∨ ∃ s ∈ (h.writes now d).sessions, s.id = k) := by
  have hw := fits hd hv hc
  have hd' := hd.overlay hw
  cases h with
  | leaving s items kind stage =>
    simp only [writes] at hi
    split at hi
    · cases hi
    · obtain ⟨i₀, hi₀, -, hm⟩ := cancelUnserved_move hi
      have hk : (kind.row now d s stage).id = s.id := by cases kind <;> cases stage <;> rfl
      refine ⟨s.id, ?_, .inr ⟨kind.row now d s stage, by simp [writes], hk⟩⟩
      rw [inSession_congr hm.orderId_eq]
      exact (hw.grows hd).inSession hd hd' (mem_itemsOf.mp (hv.2.2.subset hi₀)).2
  | moved i₀ i' s =>
    obtain rfl : i = i' := by simpa [writes] using hi
    refine ⟨s.id, ?_, .inr ⟨s.touch now, by simp [writes], rfl⟩⟩
    rw [inSession_congr hv.2.1.orderId_eq]
    exact (hw.grows hd).inSession hd hd' hv.2.2.2
  | ordering o items =>
    refine ⟨o.tableSessionId, (inSession_iff hd').mpr ⟨o, ?_, rfl⟩, .inl rfl⟩
    simp [writes, lookup_singleton, hv.itemOrder i hi]
  | ordered o items s lastActivityAt =>
    refine ⟨s.id, (inSession_iff hd').mpr ⟨o, ?_, hv.2.2⟩, .inr ⟨s.touch lastActivityAt, by simp [writes], rfl⟩⟩
    simp [writes, lookup_singleton, hv.1.itemOrder i hi]
  | opening s => cases hi
  | reopening s => cases hi
  | calling s c => cases hi
  | acking c c' => cases hi
  | _ => exact absurd hc (by simp [Complete])

theorem session_of_call (hv : h.Valid owner now d) {c : StaffCall}
    (hi : c ∈ (h.writes now d).calls) (hp : c.status = .pending) :
    ∃ s ∈ (h.writes now d).sessions, c.tableSessionId = s.id := by
  cases h with
  | leaving s items kind stage =>
    simp only [writes] at hi
    split at hi
    · obtain ⟨c₀, -, rfl⟩ := mem_dismissedCalls.mp hi
      cases hp
    · cases hi
  | calling s c' =>
    obtain rfl : c = c' := by simpa [writes] using hi
    exact ⟨s.touch now, by simp [writes], hv.tableSessionId⟩
  | acking c₀ c' =>
    obtain rfl : c = c' := by simpa [writes] using hi
    obtain ⟨-, at_, by_, rfl⟩ := hv
    cases hp
  | _ => cases hi

/-- A commit leaves the items of every session alone that it neither holds nor joins. -/
theorem itemsOf_commit (hd : d.Ok owner) (hv : h.Valid owner now d) (hc : h.Complete) {k : Uuid}
    (hk : lookup k (h.writes now d).sessions = none) (hj : ¬ h.Joins k) :
    (d.overlay (h.writes now d)).itemsOf k = d.itemsOf k := by
  refine itemsOf_overlay hd (fits hd hv hc) fun i hi => ?_
  obtain ⟨k', hin, hheld⟩ := session_of_item hd hv hc hi
  by_contra hp
  obtain rfl := inSession_unique (commit_ok hd hv hc) hin (by simpa using hp)
  rcases hheld with hj' | ⟨s, hs, he⟩
  · exact hj hj'
  · exact lookup_eq_none.mp hk s hs he

/-- An order appends its items to those of its session. -/
theorem itemsOf_ordering (hd : d.Ok owner) {o : Order} {items : List OrderItem}
    (hv : (ordering o items).Valid owner now d) :
    (d.overlay ((ordering o items).writes now d)).itemsOf o.tableSessionId =
      d.itemsOf o.tableSessionId ++ items := by
  have hw := fits hd hv trivial
  have hd' := hd.overlay hw
  have hrows : (d.overlay ((ordering o items).writes now d)).items = d.items ++ items :=
    overlay_new hv.itemNew
  have hnew : items.filter ((d.overlay ((ordering o items).writes now d)).inSession o.tableSessionId) = items := by
    refine List.filter_eq_self.mpr fun i hi => (inSession_iff hd').mpr ⟨o, ?_, rfl⟩
    simp [writes, lookup_singleton, hv.itemOrder i hi]
  rw [itemsOf, hrows, List.filter_append, hnew, itemsOf]
  congr 1
  exact List.filter_congr fun i hi => inSession_overlay hd hw (hd.itemOrder i hi)

/-- Whoever holds the session finds its items again, and behind them only pending ones. -/
theorem itemsSince_commit (hd : d.Ok owner) (hv : h.Valid owner now d) (hc : h.Complete) {k : Uuid}
    (hk : lookup k (h.writes now d).sessions = none) {items : List OrderItem} (hs : d.ItemsSince k items) :
    (d.overlay (h.writes now d)).ItemsSince k items := by
  by_cases hj : h.Joins k
  · cases h with
    | ordering o added =>
      obtain rfl : o.tableSessionId = k := hj
      obtain ⟨late, he, hp⟩ := hs
      refine ⟨late ++ added, by rw [itemsOf_ordering hd hv, he, List.append_assoc], fun i hi => ?_⟩
      rcases List.mem_append.mp hi with hi | hi
      · exact hp i hi
      · exact hv.pending i hi
    | _ => exact hj.elim
  · obtain ⟨late, he, hp⟩ := hs
    exact ⟨late, (itemsOf_commit hd hv hc hk hj).trans he, hp⟩

theorem pendingCalls_commit (hv : h.Valid owner now d) {k rid : Uuid}
    (hk : lookup k (h.writes now d).sessions = none)
    (hkeep : ∀ c ∈ d.pendingCalls k rid, lookup c.id (h.writes now d).calls = none) :
    (d.overlay (h.writes now d)).pendingCalls k rid = d.pendingCalls k rid := by
  refine pendingCalls_overlay hkeep fun c hc hp he => ?_
  obtain ⟨s, hs, hcs⟩ := session_of_call hv hc hp
  exact lookup_eq_none.mp hk s hs (hcs.symm.trans he)

theorem leaving_writes_congr {d' : Data} {s : TableSession} {items : List OrderItem} {kind : Leave}
    {stage : Stage} (hitems : d.ItemsSince s.id items) (hitems' : d'.ItemsSince s.id items)
    (hcalls : stage = .dismissed →
      d'.pendingCalls s.id s.restaurantId = d.pendingCalls s.id s.restaurantId) :
    (leaving s items kind stage).writes now d' = (leaving s items kind stage).writes now d := by
  have hrow : kind.row now d' s stage = kind.row now d s stage := by
    cases kind <;> cases stage <;> simp only [Leave.row, hitems.servedTotal, hitems'.servedTotal]
  simp only [writes, hrow, dismissedCalls, Data.mk.injEq, true_and]
  split
  · rename_i hst
    rw [hcalls hst]
  · rfl

/-- The commit of a holding that shares no row with `h` leaves `h` as it is. -/
theorem stable (hd : d.Ok owner) (hv : h.Valid owner now d) (hv' : h'.Valid owner now' d)
    (hc : h'.Complete) (hdis : (h.writes now d).overlaps (h'.writes now' d) = false)
    (hidx : ∀ r ∈ (h.writes now d).sessions, ∀ r' ∈ (h'.writes now' d).sessions,
      d.Pending r → d.Pending r' → r'.tableId ≠ r.tableId) :
    h.Valid owner now (d.overlay (h'.writes now' d)) ∧
      h.writes now (d.overlay (h'.writes now' d)) = h.writes now d := by
  have hw := fits hd hv' hc
  have hd' := hd.overlay hw
  have hg := hw.grows hd
  obtain ⟨hs, ho, hi, hcl⟩ := Data.overlaps_eq_false.mp hdis
  cases h with
  | nothing => exact ⟨trivial, rfl⟩
  | opening s =>
    have hn := hs s (by simp [writes])
    have hp : d.Pending s := ⟨hv.opened, fun r hr => by rw [hv.new] at hr; cases hr⟩
    refine ⟨⟨by simp [hn, hv.new], hv.restaurant, hv.opened, hv.columns, hv.activity, ?_⟩, rfl⟩
    exact noOpen_overlay hw hv.noOpen fun r hr hpr => hidx s (by simp [writes]) r hr hp hpr
  | reopening s =>
    have hn : lookup s.id _ = none := hs (s.reopen now) (by simp [writes])
    have hp : d.Pending (s.reopen now) :=
      ⟨rfl, fun r hr => by rw [TableSession.reopen_id, hv.1] at hr; cases hr; simp [hv.2.1]⟩
    refine ⟨⟨by simp [hn, hv.1], hv.2.1, ?_⟩, rfl⟩
    exact noOpen_overlay hw hv.2.2 fun r hr hpr =>
      hidx (s.reopen now) (by simp [writes]) r hr hp hpr
  | leaving s items kind stage =>
    have hk : (kind.row now d s stage).id = s.id := by cases kind <;> cases stage <;> rfl
    have hn := hs (kind.row now d s stage) (by simp [writes])
    rw [hk] at hn
    have hitems := itemsSince_commit hd hv' hc hn hv.2.2
    refine ⟨⟨by simp [hn, hv.1], hv.2.1, hitems⟩, ?_⟩
    refine leaving_writes_congr hv.2.2 hitems fun hst => pendingCalls_commit hv' hn fun c hc => ?_
    refine hcl (c.dismiss now) ?_
    simpa only [writes, hst, if_true] using mem_dismissedCalls.mpr ⟨c, hc, rfl⟩
  | moving i i' =>
    have hn := hi i' (by simp [writes])
    rw [hv.2.id_eq] at hn
    exact ⟨⟨by simp [hn, hv.1], hv.2⟩, rfl⟩
  | moved i i' s =>
    obtain ⟨hl, hm, hls, hin⟩ := hv
    have hn := hi i' (by simp [writes])
    rw [hm.id_eq] at hn
    have hns : lookup s.id _ = none := hs (s.touch now) (by simp [writes])
    exact ⟨⟨by simp [hn, hl], hm, by simp [hns, hls], hg.inSession hd hd' hin⟩, rfl⟩
  | ordering o items =>
    exact ⟨newOrder hd hw hv ho hi, rfl⟩
  | ordered o items s lastActivityAt =>
    have hns : lookup s.id _ = none := hs (s.touch lastActivityAt) (by simp [writes])
    exact ⟨⟨newOrder hd hw hv.1 ho hi, by simp [hns, hv.2.1], hv.2.2⟩, rfl⟩
  | touching s =>
    have hns : lookup s.id _ = none := hs (s.touch now) (by simp [writes])
    refine ⟨?_, rfl⟩
    show lookup s.id _ = some s
    simp [hns, show lookup s.id d.sessions = some s from hv]
  | calling s c =>
    have hns : lookup s.id _ = none := hs (s.touch now) (by simp [writes])
    have hn := hcl c (by simp [writes])
    exact ⟨⟨by simp [hn, hv.new], by simp [hns, hv.session], hv.tableSessionId, hv.tableId, hv.restaurant⟩, rfl⟩
  | acking c c' =>
    obtain ⟨hl, at_, by_, rfl⟩ := hv
    have hn : lookup c.id _ = none := hcl (c.acknowledge at_ by_) (by simp [writes])
    exact ⟨⟨by simp [hn, hl], at_, by_, rfl⟩, rfl⟩
where
  newOrder {d w : Data} (hd : d.Ok owner) (hw : d.Fits owner w) {o : Order} {items : List OrderItem}
      (hv : d.NewOrder o items) (ho : ∀ r ∈ [o], lookup r.id w.orders = none)
      (hi : ∀ i ∈ items, lookup i.id w.items = none) : (d.overlay w).NewOrder o items := by
    obtain ⟨s, hs, hr⟩ := hv.session
    obtain ⟨s', hs', -, hr'⟩ := hw.session_kept hd hs
    exact { hv with
      orderNew := by simp [ho o (by simp), hv.orderNew]
      session := ⟨s', hs', hr'.trans hr⟩
      itemNew := fun i hm => by simp [hi i hm, hv.itemNew i hm] }

end Holding

end QOrder
