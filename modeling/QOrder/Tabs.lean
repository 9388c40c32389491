import Mathlib.Tactic.Abel
import QOrder.Dues
import QOrder.TabLedger

/-! The tables as a ledger of tabs. A session is the tab of its table, an item is a charge on
it, and what is due are the served items. Every commit is one step of the ledger or none. -/

namespace QOrder

open KeyedTable Concurrency TabLedger

def OrderItemStatus.mark : OrderItemStatus → Mark
  | .pending | .cooking | .ready => .waiting
  | .served => .delivered
  | .cancelled => .void

def TableSession.phase (s : TableSession) : Phase Money :=
  match s.status with
  | .opened => .running
  | .abandoned => .dropped
  | .closed => .settled (s.totalAmount.getD 0)

abbrev Tabs := Ledger Uuid Uuid Uuid Money

abbrev TabAction := TabLedger.Action Uuid Uuid Uuid Money

def Data.tabs (d : Data) : Tabs where
  accounts k := (lookup k d.sessions).map fun s => ⟨s.tableId, s.phase, servedTotal (d.itemsOf k)⟩
  charges k := (lookup k d.items).bind fun i =>
    (lookup i.orderId d.orders).map fun o => ⟨o.tableSessionId, i.amount, i.status.mark⟩

section Rows

variable {owner : Uuid → Uuid} {now : Timestamp} {d w : Data} {s : TableSession} {i i' : OrderItem}
  {items : List OrderItem} {k : Uuid}

theorem mark_of_unserved (h : i.isUnserved = true) : i.status.mark = .waiting := by
  rcases isUnserved_iff.mp h with h | h | h <;> rw [h] <;> rfl

theorem unserved_of_mark (h : i.status.mark = .waiting) : i.isUnserved = true := by
  cases hs : i.status <;> rw [hs] at h <;> simp [OrderItem.isUnserved, OrderItemStatus.unserved, hs] <;>
    cases h

theorem charge_of_inSession (hd : d.Ok owner) (hl : lookup k d.items = some i) {t : Uuid}
    (hin : d.inSession t i = true) : d.tabs.charges k = some ⟨t, i.amount, i.status.mark⟩ := by
  obtain ⟨o, ho, rfl⟩ := (Data.inSession_iff hd).mp hin
  simp [Data.tabs, hl, ho]

theorem vacant_of_noOpen {tableId : Uuid} (h : d.NoOpen tableId) : d.tabs.Vacant tableId := by
  intro t a ha hp hr
  obtain ⟨s, hs, rfl⟩ := Option.map_eq_some_iff.mp ha
  have hn := h s (mem_of_lookup hs) hp
  cases hst : s.status <;> simp [TableSession.phase, hst] at hr hn

/-- The share of an item in the total. -/
def OrderItem.paid (i : OrderItem) : Money := if i.status = .served then i.amount else 0

/-- Replacing one item changes the total by the difference of the two. -/
theorem servedTotal_replace (hk : UniqueKeys items) (hi : i ∈ items) (i' : OrderItem) :
    servedTotal (items.map fun j => if j.id = i.id then i' else j) =
      servedTotal items - i.paid + i'.paid := by
  induction items with
  | nil => cases hi
  | cons j items ih =>
    have hx := List.nodup_cons.mp (by simpa only [UniqueKeys, List.map_cons] using hk)
    rw [List.map_cons, servedTotal_cons, servedTotal_cons]
    rcases List.mem_cons.mp hi with rfl | hi
    · have hrest : items.map (fun j => if j.id = i.id then i' else j) = items := by
        refine (List.map_congr_left fun j hj => ?_).trans (List.map_id _)
        refine if_neg fun he => hx.1 ?_
        exact List.mem_map.mpr ⟨j, hj, he⟩
      have hhead : (if i.id = i.id then i' else i) = i' := if_pos rfl
      rw [hrest, hhead]
      simp only [OrderItem.paid]
      abel
    · have hne : j.id ≠ i.id := by
        intro he
        exact hx.1 (List.mem_map.mpr ⟨i, hi, he.symm⟩)
      rw [if_neg hne, ih hx.2 hi]
      abel

end Rows

section Commits

variable {owner : Uuid → Uuid} {now : Timestamp} {d w : Data} {s r : TableSession} {i i' : OrderItem}
  {o : Order} {items : List OrderItem} {k : Uuid} {kind : Leave} {at_ : Timestamp}

/-- The account of a session whose row is `r`. -/
def TableSession.account (r : TableSession) (due : Money) : Account Uuid Money :=
  ⟨r.tableId, r.phase, due⟩

theorem tabs_accounts : d.tabs.accounts k =
    (lookup k d.sessions).map fun s => s.account (servedTotal (d.itemsOf k)) := rfl

theorem account_held (hl : lookup s.id d.sessions = some s) :
    d.tabs.accounts s.id = some (s.account (servedTotal (d.itemsOf s.id))) := by
  simp [tabs_accounts, hl]

/-- One session row is written, and the totals of the others stay. -/
theorem tabs_row (hs : w.sessions = [r])
    (hk : ∀ k, k ≠ r.id → servedTotal ((d.overlay w).itemsOf k) = servedTotal (d.itemsOf k)) :
    (d.overlay w).tabs.accounts = Function.update d.tabs.accounts r.id
      (some (r.account (servedTotal ((d.overlay w).itemsOf r.id)))) := by
  funext k
  by_cases hid : k = r.id
  · subst hid
    simp [tabs_accounts, hs, lookup_singleton]
  · have hne : r.id ≠ k := fun h => hid h.symm
    simp [tabs_accounts, hs, lookup_singleton, hid, hne, hk k hid]

theorem tabs_sessions (hs : w.sessions = [r]) (ho : w.orders = []) (hi : w.items = []) :
    (d.overlay w).tabs = ⟨Function.update d.tabs.accounts r.id
      (some (r.account (servedTotal (d.itemsOf r.id)))), d.tabs.charges⟩ := by
  have hrow := tabs_row (d := d) hs fun k _ => by rw [Data.itemsOf_of_nil ho hi]
  rw [Data.itemsOf_of_nil ho hi] at hrow
  have hcharges : (d.overlay w).tabs.charges = d.tabs.charges := by
    funext l
    simp [Data.tabs, ho, hi]
  exact Ledger.ext hrow hcharges

theorem tabs_touched (hl : lookup s.id d.sessions = some s) (hs : w.sessions = [s.touch at_])
    (ho : w.orders = []) (hi : w.items = []) : (d.overlay w).tabs = d.tabs := by
  have hsame : d.tabs.accounts s.id = some ((s.touch at_).account (servedTotal (d.itemsOf s.id))) :=
    account_held hl
  rw [tabs_sessions hs ho hi, show (s.touch at_).id = s.id from rfl, ← hsame, Function.update_eq_self]

theorem tabs_calls (hs : w.sessions = []) (ho : w.orders = []) (hi : w.items = []) :
    (d.overlay w).tabs = d.tabs := by
  have hdata : (d.overlay w).tabs.accounts = d.tabs.accounts := by
    funext k
    simp [tabs_accounts, hs, Data.itemsOf_of_nil ho hi]
  refine Ledger.ext hdata (funext fun l => ?_)
  simp [Data.tabs, ho, hi]

theorem no_items_of_new (hd : d.Ok owner) (hn : lookup k d.sessions = none) : d.itemsOf k = [] := by
  refine List.filter_eq_nil_iff.mpr fun i hi hin => ?_
  obtain ⟨o, ho, rfl⟩ := (Data.inSession_iff hd).mp hin
  have hs := hd.orderSession o (mem_of_lookup ho)
  rw [hn] at hs
  cases hs

theorem step_opening (hd : d.Ok owner) (hv : (Holding.opening s).Valid owner now d) :
    Step d.tabs (.openTab s.id s.tableId) (d.overlay ((Holding.opening s).writes now d)).tabs := by
  have hphase : s.phase = .running := by simp [TableSession.phase, hv.opened]
  have hdue : servedTotal (d.itemsOf s.id) = 0 := by
    rw [no_items_of_new hd hv.new]
    rfl
  have hnone : d.tabs.accounts s.id = none := by simp [tabs_accounts, hv.new]
  rw [tabs_sessions (r := s) rfl rfl rfl, hdue, TableSession.account, hphase]
  exact .openTab hnone (vacant_of_noOpen hv.noOpen)

theorem step_reopening (hv : (Holding.reopening s).Valid owner now d) :
    Step d.tabs (.resume s.id) (d.overlay ((Holding.reopening s).writes now d)).tabs := by
  obtain ⟨hl, ha, hno⟩ := hv
  have hphase : s.phase = .dropped := by simp [TableSession.phase, ha]
  rw [tabs_sessions (r := s.reopen now) rfl rfl rfl]
  exact .resume (account_held hl) hphase (vacant_of_noOpen hno)

/-- Row versions of the items of one session leave the items of the others alone. -/
theorem itemsOf_elsewhere (hd : d.Ok owner) (hw : d.Fits owner w) (ho : w.orders = []) {t : Uuid}
    (hin : ∀ i ∈ w.items, d.inSession t i = true) (hne : k ≠ t) :
    (d.overlay w).itemsOf k = d.itemsOf k := by
  refine Data.itemsOf_overlay hd hw fun i hi => ?_
  have hsame : (d.overlay w).inSession k i = d.inSession k i := by simp [Data.inSession, ho]
  rw [hsame]
  by_contra hk
  exact hne (Data.inSession_unique hd (by simpa using hk) (hin i hi))

/-- A charge of the session that is taken out of use is struck out if it waits and was noticed. -/
theorem charges_leaving (hd : d.Ok owner) {late : List OrderItem} (hs : d.itemsOf s.id = items ++ late) :
    (d.overlay ((Holding.leaving s items kind .dismissed).writes now d)).tabs.charges =
      d.tabs.strike s.id (late.map OrderItem.id) := by
  have hids := hd.itemsOf_ids (k := s.id)
  rw [hs] at hids
  have hsplit : (items.map key ++ late.map key).Nodup := by
    rw [← List.map_append]
    exact hids
  have hdisjoint := (List.nodup_append.mp hsplit).2.2
  have hu : UniqueKeys items := hids.sublist ((List.sublist_append_left items late).map key)
  funext l
  simp only [Ledger.strike]
  cases hl : lookup l d.items with
  | none =>
    have hnone : lookup l (cancelUnserved now kind.reason items) = none :=
      Data.lookup_cancelUnserved_none fun i hi he => by
        have hm := (Data.mem_itemsOf.mp (hs ▸ List.mem_append_left late hi)).1
        rw [← he, hd.mem_items.mp hm] at hl
        cases hl
    simp [Data.tabs, Holding.writes, hnone, hl]
  | some i =>
    have hid : i.id = l := key_of_lookup hl
    obtain ⟨o, ho⟩ := Option.isSome_iff_exists.mp (hd.itemOrder i (mem_of_lookup hl))
    have hcharge : d.tabs.charges l = some ⟨o.tableSessionId, i.amount, i.status.mark⟩ := by
      simp [Data.tabs, hl, ho]
    by_cases hi : i ∈ items
    · have hin := (Data.mem_itemsOf.mp (hs ▸ List.mem_append_left late hi)).2
      have ht : o.tableSessionId = s.id := by simpa [Data.inSession_iff hd, ho] using hin
      have hnoticed : l ∉ late.map OrderItem.id := fun hm => hdisjoint l (List.mem_map.mpr ⟨i, hi, hid⟩) l hm rfl
      rw [if_neg hnoticed, hcharge]
      have hrow : (lookup i.id (cancelUnserved now kind.reason items)).getD i =
          i.cancelIfUnserved now kind.reason := Data.lookup_cancelUnserved hu hi
      rw [hid] at hrow
      simp only [Data.tabs, Data.overlay_items, lookup_overlay, Data.overlay_orders, Holding.writes, hl,
        reduceCtorEq, if_false]
      rw [show (lookup l (cancelUnserved now kind.reason items)).or (some i) =
        some (i.cancelIfUnserved now kind.reason) by rw [← hrow, Option.or_some]]
      unfold OrderItem.cancelIfUnserved
      cases hst : i.isUnserved with
      | true => simp [ho, Charge.strike, ht, mark_of_unserved hst, OrderItem.amount]; rfl
      | false =>
        have hmark : i.status.mark ≠ .waiting := fun hm => by
          rw [unserved_of_mark hm] at hst
          cases hst
        simp [ho, Charge.strike, hmark]
    · have hnone : lookup l (cancelUnserved now kind.reason items) = none :=
        Data.lookup_cancelUnserved_none fun j hj he => hi (by
          have hm := (Data.mem_itemsOf.mp (hs ▸ List.mem_append_left late hj)).1
          rwa [eq_of_key_eq hd.itemIds hm (mem_of_lookup hl) (he.trans hid.symm)] at hj)
      have hkept : (d.overlay ((Holding.leaving s items kind .dismissed).writes now d)).tabs.charges l =
          d.tabs.charges l := by
        simp [Data.tabs, Holding.writes, hnone, hl, ho]
      rw [hkept]
      split
      · rfl
      · rename_i hlate
        have hstay : o.tableSessionId ≠ s.id := fun ht => by
          have hm : i ∈ d.itemsOf s.id :=
            Data.mem_itemsOf.mpr ⟨mem_of_lookup hl, (Data.inSession_iff hd).mpr ⟨o, ho, ht⟩⟩
          rcases List.mem_append.mp (hs ▸ hm) with hm | hm
          · exact hi hm
          · exact hlate (List.mem_map.mpr ⟨i, hm, hid⟩)
        rw [hcharge]
        simp [Charge.strike, hstay]

theorem tabs_leaving (hd : d.Ok owner) {late : List OrderItem} (hs : d.itemsOf s.id = items ++ late)
    (hv : (Holding.leaving s items kind .dismissed).Valid owner now d) :
    (d.overlay ((Holding.leaving s items kind .dismissed).writes now d)).tabs =
      ⟨Function.update d.tabs.accounts s.id
          (some ((kind.row now d s .dismissed).account (servedTotal (d.itemsOf s.id)))),
        d.tabs.strike s.id (late.map OrderItem.id)⟩ := by
  have hfits := Holding.fits hd hv trivial
  have hin : ∀ i ∈ cancelUnserved now kind.reason items, d.inSession s.id i = true := by
    intro i hi
    obtain ⟨i₀, hi₀, -, hm⟩ := Data.cancelUnserved_move hi
    rw [Data.inSession_congr hm.orderId_eq]
    exact (Data.mem_itemsOf.mp (hv.2.2.subset hi₀)).2
  have hrow := tabs_row (d := d) (w := (Holding.leaving s items kind .dismissed).writes now d)
    (r := kind.row now d s .dismissed) rfl fun k hk => by
      rw [Leave.row_id] at hk
      rw [itemsOf_elsewhere hd hfits rfl hin hk]
  have hdue : servedTotal ((d.overlay ((Holding.leaving s items kind .dismissed).writes now d)).itemsOf
      s.id) = servedTotal (d.itemsOf s.id) := by
    obtain ⟨late', -, hp, hafter⟩ := leaving_itemsOf hd hv
    rw [hafter, Data.servedTotal_append_pending hp, servedTotal_cancel, ← hv.2.2.servedTotal]
  rw [Leave.row_id, hdue] at hrow
  exact Ledger.ext hrow (charges_leaving hd hs)

def Leave.action (t : Uuid) : Leave → TabAction
  | close => .settle t
  | abandon => .drop t

theorem step_leaving (hd : d.Ok owner)
    (hv : (Holding.leaving s items kind .dismissed).Valid owner now d) :
    Step d.tabs (kind.action s.id)
      (d.overlay ((Holding.leaving s items kind .dismissed).writes now d)).tabs := by
  have ha := account_held hv.1
  obtain ⟨late, hs, -⟩ := hv.2.2
  rw [tabs_leaving hd hs hv]
  cases kind with
  | close =>
    refine .settle _ ha fun x hx => ?_
    have hp : s.phase = .settled x := hx
    rcases hv.2.1 with hs | ⟨hs, -⟩ <;> simp [TableSession.phase, hs] at hp
  | abandon =>
    have hs : s.status = .opened := by
      rcases hv.2.1 with hs | ⟨-, hk⟩
      · exact hs
      · cases hk
    have hp : s.phase = .running := by simp [TableSession.phase, hs]
    exact .drop _ ha hp

theorem tabs_moved (hd : d.Ok owner) (hv : (Holding.moved i i' s).Valid owner now d) :
    (d.overlay ((Holding.moved i i' s).writes now d)).tabs =
      ⟨Function.update d.tabs.accounts s.id
          (some (s.account (servedTotal (d.itemsOf s.id) - i.paid + i'.paid))),
        Function.update d.tabs.charges i.id (some ⟨s.id, i'.amount, i'.status.mark⟩)⟩ := by
  have hfits := Holding.fits hd hv trivial
  obtain ⟨hl, hm, hs, hin⟩ := hv
  have hin' : ∀ j ∈ [i'], d.inSession s.id j = true := by
    intro j hj
    rw [List.mem_singleton.mp hj, Data.inSession_congr hm.orderId_eq]
    exact hin
  have hrow := tabs_row (d := d) (w := (Holding.moved i i' s).writes now d) (r := s.touch now) rfl
    fun k hk => by rw [itemsOf_elsewhere hd hfits rfl hin' hk]
  have hids : UniqueKeys (d.itemsOf s.id) := hd.itemIds.sublist (List.filter_sublist.map _)
  have hmem : i ∈ d.itemsOf s.id := Data.mem_itemsOf.mpr ⟨mem_of_lookup hl, hin⟩
  have hdue := servedTotal_replace hids hmem i'
  rw [← Holding.itemsOf_moved hd ⟨hl, hm, hs, hin⟩] at hdue
  rw [show (s.touch now).id = s.id from rfl, hdue] at hrow
  refine Ledger.ext hrow (funext fun l => ?_)
  obtain ⟨o, ho, ht⟩ := (Data.inSession_iff hd).mp hin
  by_cases hid : l = i.id
  · subst hid
    simp [Data.tabs, Holding.writes, lookup_singleton, hm.id_eq, hm.orderId_eq, ho, ht]
  · have hne : i'.id ≠ l := fun h => hid (h.symm.trans hm.id_eq)
    simp [Data.tabs, Holding.writes, lookup_singleton, hid, hne]

/-- What the move of an item is to the tab of its session. -/
def OrderItem.action (i i' : OrderItem) (t : Uuid) : Option TabAction :=
  match i'.status with
  | .cooking | .ready => none
  | .served => some (.deliver i.id t i.amount)
  | .cancelled => some (.void i.id)
  | .pending => some (.takeBack i.id t i.amount)

theorem step_moved (hd : d.Ok owner) (hv : (Holding.moved i i' s).Valid owner now d) :
    (i.action i' s.id = none → (d.overlay ((Holding.moved i i' s).writes now d)).tabs = d.tabs) ∧
      ∀ c, i.action i' s.id = some c →
        Step d.tabs c (d.overlay ((Holding.moved i i' s).writes now d)).tabs := by
  have hcharge := charge_of_inSession hd hv.1 hv.2.2.2
  have hacc := account_held hv.2.2.1
  rw [tabs_moved hd hv]
  obtain ⟨-, hm, -, -⟩ := hv
  have hamount : i'.amount = i.amount := hm.amount_eq
  have same (hp : i.status ≠ .served) (hp' : i'.status ≠ .served) :
      servedTotal (d.itemsOf s.id) - i.paid + i'.paid = servedTotal (d.itemsOf s.id) := by
    simp [OrderItem.paid, hp, hp']
  rw [hamount]
  cases hm with
  | cook h =>
    have hmark : (i.advance .cooking).status.mark = i.status.mark := by rw [h]; rfl
    refine ⟨fun _ => ?_, fun c hc => by cases hc⟩
    rw [same (by simp [h]) (by simp), hmark, ← hacc, ← hcharge]
    simp
  | ready h =>
    have hp : i.status ≠ .served := by rcases h with h | h <;> simp [h]
    have hmark : (i.advance .ready).status.mark = i.status.mark := by rcases h with h | h <;> rw [h] <;> rfl
    refine ⟨fun _ => ?_, fun c hc => by cases hc⟩
    rw [same hp (by simp), hmark, ← hacc, ← hcharge]
    simp
  | serve actorUserId h =>
    have hp : i.status ≠ .served := fun hs => by
      rw [OrderItem.isUnserved_false_of_served hs] at h
      cases h
    have hpaid : servedTotal (d.itemsOf s.id) - i.paid + (i.serve .served actorUserId now).paid =
        servedTotal (d.itemsOf s.id) + i.amount := by
      simp [OrderItem.paid, hp, hamount]
    refine ⟨fun hn => (by cases hn), fun c hc => ?_⟩
    cases hc
    rw [hpaid]
    rw [mark_of_unserved h] at hcharge
    exact .deliver hacc hcharge
  | undo h hu =>
    have hpaid : servedTotal (d.itemsOf s.id) - i.paid + (i.undo .pending).paid =
        servedTotal (d.itemsOf s.id) - i.amount := by
      simp [OrderItem.paid, h]
    refine ⟨fun hn => (by cases hn), fun c hc => ?_⟩
    cases hc
    rw [hpaid]
    rw [h] at hcharge
    exact .takeBack hacc hcharge
  | cancel cancelledBy cancelReason h =>
    have hp : i.status ≠ .served := fun hs => by
      rw [OrderItem.isUnserved_false_of_served hs] at h
      cases h
    refine ⟨fun hn => (by cases hn), fun c hc => ?_⟩
    cases hc
    rw [same hp (by simp), ← hacc, Function.update_eq_self]
    rw [mark_of_unserved h] at hcharge
    exact .void hcharge

/-- The lines of an order, by their ids. -/
def newCharges (items : List OrderItem) (l : Uuid) : Option Money := (lookup l items).map OrderItem.amount

section Order

variable {h : Holding} (hp : h.Places o items) (hd : d.Ok owner) (hv : h.Valid owner now d)

include hp hd hv

theorem servedTotal_placed (k : Uuid) :
    servedTotal ((d.overlay (h.writes now d)).itemsOf k) = servedTotal (d.itemsOf k) := by
  have hfits := Holding.fits hd hv hp.complete
  have hplaced := hp.newOrder hv
  have hrows : (d.overlay (h.writes now d)).items = d.items ++ items := by
    rw [Data.overlay_items, hp.writes_items]
    exact overlay_new hplaced.itemNew
  have hold : d.items.filter ((d.overlay (h.writes now d)).inSession k) = d.itemsOf k :=
    List.filter_congr fun i hi => Data.inSession_overlay hd hfits (hd.itemOrder i hi)
  rw [Data.itemsOf, hrows, List.filter_append, hold]
  exact Data.servedTotal_append_pending fun j hj => hplaced.pending j (List.mem_of_mem_filter hj)

theorem accounts_placed : (d.overlay (h.writes now d)).tabs.accounts = d.tabs.accounts := by
  have htotal := servedTotal_placed hp hd hv
  cases hp with
  | ordering =>
    funext k
    rw [tabs_accounts, tabs_accounts, htotal]
    simp [Holding.writes]
  | ordered s at_ =>
    have hrow := tabs_row (d := d) (w := (Holding.ordered o items s at_).writes now d) (r := s.touch at_) rfl
      fun k _ => htotal k
    rw [htotal, show (s.touch at_).account (servedTotal (d.itemsOf (s.touch at_).id)) =
      s.account (servedTotal (d.itemsOf s.id)) from rfl, show (s.touch at_).id = s.id from rfl,
      ← account_held hv.2.1, Function.update_eq_self] at hrow
    exact hrow

theorem charges_placed : (d.overlay (h.writes now d)).tabs.charges = fun l =>
    ((newCharges items l).map fun x => ⟨o.tableSessionId, x, .waiting⟩).or (d.tabs.charges l) := by
  have hfits := Holding.fits hd hv hp.complete
  have hplaced := hp.newOrder hv
  funext l
  simp only [Data.tabs, Data.overlay_items, Data.overlay_orders, lookup_overlay, newCharges, hp.writes_items,
    hp.writes_orders]
  cases hl : lookup l items with
  | some j =>
    have hj := mem_of_lookup hl
    simp [hplaced.itemOrder j hj, hplaced.pending j hj, lookup_singleton]
    rfl
  | none =>
    cases hi : lookup l d.items with
    | none => rfl
    | some i =>
      obtain ⟨o', ho'⟩ := Option.isSome_iff_exists.mp (hd.itemOrder i (mem_of_lookup hi))
      have hkept := hfits.order_kept ho'
      rw [Data.overlay_orders, lookup_overlay, hp.writes_orders, ho'] at hkept
      simp only [Option.none_or, Option.bind_some, hkept, ho', Option.map_none, Option.map_some]

theorem step_placed :
    Step d.tabs (.order o.tableSessionId (newCharges items)) (d.overlay (h.writes now d)).tabs := by
  have hplaced := hp.newOrder hv
  obtain ⟨s, hs, -⟩ := hplaced.session
  have hacc : d.tabs.accounts o.tableSessionId = some (s.account (servedTotal (d.itemsOf o.tableSessionId))) := by
    simp [tabs_accounts, hs]
  have htabs : (d.overlay (h.writes now d)).tabs = ⟨d.tabs.accounts, fun l =>
      ((newCharges items l).map fun x => ⟨o.tableSessionId, x, .waiting⟩).or (d.tabs.charges l)⟩ :=
    Ledger.ext (accounts_placed hp hd hv) (charges_placed hp hd hv)
  rw [htabs]
  refine .order hacc fun l x hx => ?_
  obtain ⟨j, hj, -⟩ := Option.map_eq_some_iff.mp hx
  have hid : j.id = l := key_of_lookup hj
  have hnew := hplaced.itemNew j (mem_of_lookup hj)
  rw [hid] at hnew
  simp [Data.tabs, hnew]

end Order

end Commits

/-- What the commit of a transaction is to the tabs. -/
def Holding.action : Holding → Option TabAction
  | opening s => some (.openTab s.id s.tableId)
  | reopening s => some (.resume s.id)
  | leaving s _ kind _ => some (kind.action s.id)
  | moved i i' s => i.action i' s.id
  | ordering o items | ordered o items _ _ => some (.order o.tableSessionId (newCharges items))
  | _ => none

section Steps

variable {owner : Uuid → Uuid} {now : Timestamp} {d : Data} {h : Holding}

/-- A commit is the step of the ledger that its holding names, or none. -/
theorem Holding.tabs_step (hd : d.Ok owner) (hv : h.Valid owner now d) (hc : h.Complete) :
    (h.action = none → (d.overlay (h.writes now d)).tabs = d.tabs) ∧
      ∀ c, h.action = some c → Step d.tabs c (d.overlay (h.writes now d)).tabs := by
  cases h with
  | opening s =>
    refine ⟨fun hn => (by cases hn), fun c hcs => ?_⟩
    cases hcs
    exact step_opening hd hv
  | reopening s =>
    refine ⟨fun hn => (by cases hn), fun c hcs => ?_⟩
    cases hcs
    exact step_reopening hv
  | leaving s items kind stage =>
    cases stage with
    | dismissed =>
      refine ⟨fun hn => (by cases hn), fun c hcs => ?_⟩
      cases hcs
      exact step_leaving hd hv
    | _ => exact absurd hc (by simp [Complete])
  | moved i i' s => exact step_moved hd hv
  | ordering o items =>
    refine ⟨fun hn => (by cases hn), fun c hcs => ?_⟩
    cases hcs
    exact step_placed .ordering hd hv
  | ordered o items s at_ =>
    refine ⟨fun hn => (by cases hn), fun c hcs => ?_⟩
    cases hcs
    exact step_placed (.ordered s at_) hd hv
  | calling s c =>
    exact ⟨fun _ => tabs_touched hv.session rfl rfl rfl, fun c hcs => (by cases hcs)⟩
  | acking c c' => exact ⟨fun _ => tabs_calls rfl rfl rfl, fun c hcs => (by cases hcs)⟩
  | _ => exact absurd hc (by simp [Complete])

end Steps

end QOrder
