import QOrder.OneOpen
import QOrder.OrderRace

/-! The instant a session is taken out of use: what its items, its calls, its total and
the report of the checkout are then. -/

namespace QOrder

open KeyedTable Concurrency

variable {n : Nat} {owner : Uuid → Uuid} {req : Fin n → Request}

/-- The items a commit turned to cancelled, as they were before. -/
def Event.turnedCancelled (e : Event n) : List OrderItem :=
  e.before.items.filter fun i =>
    i.status != .cancelled && (lookup i.id e.after.items).any fun i' => i'.status == .cancelled

/-- The `auto_cancelled_items` an answer reports, with the session it has closed. -/
def reported : Request → Except Exn Response → Option (Uuid × List CancelledItemSummary)
  | .checkoutSession _ sessionId, .ok (.checkout result) => some (sessionId, result.autoCancelledItems)
  | .restoreSession _ sessionId, .ok (.restore result) =>
    match result.action with
    | .restored => none
    | .checkedOut => some (sessionId, result.autoCancelledItems)
  | _, _ => none

section Left

variable {e : Event n} {s : TableSession} {items : List OrderItem} {kind : Leave}

theorem Left.lookup_item (hl : Left owner e s items kind) {i : OrderItem} (hi : i ∈ e.before.items) :
    lookup i.id e.after.items =
      some (if i ∈ items then i.cancelIfUnserved e.now kind.reason else i) := by
  have hsub : items ⊆ e.before.items := fun j hj => (Data.mem_itemsOf.mp (hl.valid.2.2.subset hj)).1
  have hids := hl.valid.2.2.ids hl.ok
  have hafter : lookup i.id e.after.items =
      some ((lookup i.id (cancelUnserved e.now kind.reason items)).getD i) := by
    rw [hl.after, Data.overlay_items, lookup_overlay, hl.ok.mem_items.mp hi]
    simp only [Holding.writes, reduceCtorEq, if_false]
    cases lookup i.id (cancelUnserved e.now kind.reason items) <;> rfl
  rw [hafter]
  split
  next hin => rw [Data.lookup_cancelUnserved hids hin]
  next hin =>
    have hne : ∀ j ∈ items, j.id ≠ i.id := fun j hj he =>
      hin (eq_of_key_eq hl.ok.itemIds (hsub hj) hi he ▸ hj)
    rw [Data.lookup_cancelUnserved_none hne, Option.getD_none]

theorem Left.turnedCancelled (hl : Left owner e s items kind) :
    e.turnedCancelled = items.filter OrderItem.isUnserved := by
  obtain ⟨late, hs, -⟩ := hl.valid.2.2
  have hnodup : (items ++ late).Nodup := hs ▸ List.Nodup.filter _ (List.Nodup.of_map _ hl.ok.itemIds)
  have hmet : (e.before.itemsOf s.id).filter (fun i => decide (i ∈ items)) = items := by
    have hlate : late.filter (fun i => decide (i ∈ items)) = [] :=
      List.filter_eq_nil_iff.mpr fun i hi hin =>
        (List.nodup_append.mp hnodup).2.2 i (of_decide_eq_true hin) i hi rfl
    rw [hs, List.filter_append, hlate, List.append_nil, List.filter_eq_self]
    exact fun i hi => decide_eq_true hi
  rw [← hmet, Data.itemsOf, List.filter_filter, List.filter_filter]
  refine List.filter_congr fun i hi => ?_
  rw [hl.lookup_item hi]
  by_cases hin : i ∈ items
  · have hses : e.before.inSession s.id i = true := (Data.mem_itemsOf.mp (hl.valid.2.2.subset hin)).2
    cases hs : i.status <;>
      simp [hin, hses, OrderItem.cancelIfUnserved, OrderItem.isUnserved, OrderItemStatus.unserved, hs]
  · cases hs : i.status <;> simp [hin, hs]

theorem mem_statusChanges {k : Uuid} {a b : SessionStatus} (h : (k, a, b) ∈ e.statusChanges) :
    ∃ s s', s ∈ e.before.sessions ∧ lookup s.id e.after.sessions = some s' ∧ s.id = k ∧
      s.status = a ∧ s'.status = b ∧ a ≠ b := by
  obtain ⟨s, hs, h⟩ := List.mem_filterMap.mp h
  obtain ⟨s', hs', h⟩ := Option.bind_eq_some_iff.mp h
  split at h
  · cases h
  next hne =>
    cases h
    exact ⟨s, s', hs, hs', rfl, rfl, rfl, hne⟩

/-- Whatever takes a session out of use holds it as one that leaves. -/
theorem Entry.left {hb : List (Event n)} (he : Entry owner req hb e) {k : Uuid} {a b : SessionStatus}
    (h : (k, a, b) ∈ e.statusChanges) (hne : b ≠ .opened) :
    ∃ s items kind, Left owner e s items kind ∧
      ItemsMet (Stmt.takesItems s.id) s.id items (own e.client hb) ∧ s.id = k ∧ b = kind.status := by
  rcases he.unchanged_or_committed with ha | ⟨w, hc⟩
  · rw [he.statusChanges_unchanged ha] at h
    cases h
  · obtain ⟨s, s', hs, hs', rfl, rfl, rfl, hab⟩ := mem_statusChanges h
    obtain ⟨s₁, hs₁, hst⟩ := hc.session (hc.ok.mem_sessions.mp hs)
    obtain rfl := Option.some.inj (hs'.symm.trans hs₁)
    cases hst with
    | left items kind =>
      exact ⟨s, items, kind, ⟨hc.commit, hc.ok, hc.valid, hc.after⟩, hc.justified.2, rfl, Leave.row_status _⟩
    | reopened => exact absurd rfl hne
    | _ => exact absurd rfl hab

theorem Left.no_pending (hl : Left owner e s items kind) :
    ∀ c ∈ e.after.calls, c.tableSessionId = s.id → c.status ≠ .pending := by
  intro c hc hk
  rw [hl.after] at hc
  exact leaving_no_pending hl.ok hl.valid hc hk

theorem Left.total (hl : Left owner e s items .close) : ∃ s', lookup s.id e.after.sessions = some s' ∧
    s'.totalAmount = some (servedTotal (e.after.itemsOf s.id)) := by
  refine ⟨Leave.close.row e.now e.before s .dismissed, ?_, ?_⟩
  · rw [hl.after]
    simp [Holding.writes, lookup_singleton]
  · rw [hl.after]
    exact leaving_total hl.ok hl.valid rfl

/-- Exactly the items that were added unnoticed are left unserved. -/
theorem Left.unserved_iff (hl : Left owner e s items kind) {late : List OrderItem}
    (hs : e.before.itemsOf s.id = items ++ late) :
    (∀ i ∈ e.after.itemsOf s.id, i.status.unserved = false) ↔ late = [] := by
  obtain ⟨late', hs', hp, hafter⟩ := leaving_itemsOf hl.ok hl.valid
  obtain rfl : late = late' := List.append_cancel_left (hs.symm.trans hs')
  rw [hl.after, hafter]
  constructor
  · intro h
    refine List.eq_nil_iff_forall_not_mem.mpr fun i hi => ?_
    have hu := h i (List.mem_append_right _ hi)
    simp [hp i hi, OrderItemStatus.unserved] at hu
  · rintro rfl i hi
    rw [List.append_nil] at hi
    obtain ⟨j, -, rfl⟩ := List.mem_map.mp hi
    exact j.cancelIfUnserved_served

end Left

section Closing

variable {D : Deployment owner} {p : Clients n}

/-- A reported closing was committed. It has cancelled what it reports and left nothing unserved unless
an order slipped in after its `SELECT`. -/
theorem Deployment.Reaches.reports (hr : D.Reaches req p) {t : Fin n} {res : Except Exn Response}
    (hres : (p.threads t).answer = some res) {k : Uuid} {autoCancelled : List CancelledItemSummary}
    (hrep : reported (req t) res = some (k, autoCancelled)) :
    ∃ hb e post, p.state.history = hb ++ e :: post ∧ e.client = t ∧ (∃ a, e.statusChanges = [(k, a, .closed)]) ∧
      ((autoCancelled = e.turnedCancelled.map OrderItem.summary ∧
          ∀ i ∈ e.after.itemsOf k, i.status.unserved = false) ↔
        ¬ SlippedIn t (Stmt.listsItems k) k hb) := by
  have ho := (hr.kept.ended hres).2
  have found {e : Event n} {s : TableSession} {cancelled : List CancelledItemSummary} {total : Money}
      (hs : Reports owner (own t p.state.history) e s cancelled total) :
      ∃ hb e post, p.state.history = hb ++ e :: post ∧ e.client = t ∧
        (∃ a, e.statusChanges = [(s.id, a, .closed)]) ∧
        ((cancelled = e.turnedCancelled.map OrderItem.summary ∧
            ∀ i ∈ e.after.itemsOf s.id, i.status.unserved = false) ↔
          ¬ SlippedIn t (Stmt.listsItems s.id) s.id hb) := by
    obtain ⟨items, hleft, -, l₁, l₂, listed, late, hown, hmet, rfl, hp, rfl⟩ := hs.left
    have hcl : e.client = t := by
      have he : e ∈ own t p.state.history := hown ▸ List.mem_append_right _ List.mem_cons_self
      exact of_decide_eq_true (List.mem_filter.mp he).2
    subst hcl
    obtain ⟨hb, post, hh, rfl, -⟩ := filter_split hown
    refine ⟨hb, e, post, hh, rfl, ⟨s.status, hleft.statusChanges⟩, ?_⟩
    obtain ⟨late', hs', hp'⟩ := hleft.valid.2.2
    rw [slippedIn_iff hr hh hmet (hs'.trans (List.append_assoc ..)), not_not, List.append_eq_nil_iff,
      hleft.unserved_iff hs', hleft.turnedCancelled, List.filter_append, List.map_append]
    have hall : late.filter OrderItem.isUnserved = late :=
      List.filter_eq_self.mpr fun i hi => by simp [OrderItem.isUnserved, OrderItemStatus.unserved, hp i hi]
    rw [hall, List.self_eq_append_right, List.map_eq_nil_iff]
  cases hq : req t with
  | checkoutSession user k' =>
    rw [hq] at ho hrep
    cases res with
    | error e => cases hrep
    | ok a =>
      obtain ⟨result, rfl, e, s, hc, rfl, -, hs⟩ := answers_checkout ho
      cases hrep
      exact found hs
  | restoreSession user k' =>
    rw [hq] at ho hrep
    cases res with
    | error e => cases hrep
    | ok a =>
      obtain ⟨result, rfl, e, s, hc, rfl, hact⟩ := answers_restore ho
      simp only [reported] at hrep
      cases ha : result.action with
      | restored => simp [ha] at hrep
      | checkedOut =>
        rw [ha] at hact hrep
        cases hrep
        obtain ⟨-, total, -, hs⟩ := hact
        exact found hs
  | _ => simp [hq, reported] at hrep

theorem closing_commit (hr : D.Reaches req p) :
    (∀ hb e post, p.state.history = hb ++ e :: post → ∀ k a b, (k, a, b) ∈ e.statusChanges → b ≠ .opened →
      (∀ c ∈ e.after.calls, c.tableSessionId = k → c.status ≠ .pending) ∧
      (b = .closed → ∃ s, lookup k e.after.sessions = some s ∧
        s.totalAmount = some (servedTotal (e.after.itemsOf k))) ∧
      ((∀ i ∈ e.after.itemsOf k, i.status.unserved = false) ↔
        ¬ SlippedIn e.client (Stmt.takesItems k) k hb)) ∧
    (∀ t res k autoCancelled, (p.threads t).answer = some res →
      reported (req t) res = some (k, autoCancelled) →
        ∃ hb e post, p.state.history = hb ++ e :: post ∧ e.client = t ∧
          (∃ a, e.statusChanges = [(k, a, .closed)]) ∧
          ((autoCancelled = e.turnedCancelled.map OrderItem.summary ∧
              ∀ i ∈ e.after.itemsOf k, i.status.unserved = false) ↔
            ¬ SlippedIn t (Stmt.listsItems k) k hb)) := by
  refine ⟨fun hb e post hh k a b hch hne => ?_, fun t res k autoCancelled ha hrep => hr.reports ha hrep⟩
  obtain ⟨s, items, kind, hl, hmet, rfl, rfl⟩ := (hr.inv.logged hb e post hh).left hch hne
  obtain ⟨late, hs, -⟩ := hl.valid.2.2
  refine ⟨hl.no_pending, fun hk => ?_, ?_⟩
  · cases kind with
    | close => exact hl.total
    | abandon => cases hk
  · rw [hl.unserved_iff hs, slippedIn_iff hr hh hmet hs, not_not]

def cafeClosing : Fin 3 → Request
  | 0 => cafeOrder
  | 1 => .setItemStatus cafeStaff 12 .cooking
  | 2 => .checkoutSession cafeStaff 10

/-- A dish turns to cooking while its table is checked out; the report has it so. -/
theorem closing_commit_cafe : ∃ p, cafe.Reaches cafeClosing p ∧
    ∃ hb e post, p.state.history = hb ++ e :: post ∧ (∃ a, e.statusChanges = [(10, a, .closed)]) ∧
      e.turnedCancelled.map OrderItem.status = [.cooking] ∧
      (∀ i ∈ e.after.itemsOf 10, i.status.unserved = false) ∧
      ¬ SlippedIn 2 (Stmt.listsItems 10) 10 hb := by
  obtain ⟨p, hr, hc⟩ := cafe.reaches_play cafeClosing
    (fun p => ((response p 2).bind Response.asCheckout).any fun result => p.state.history.all fun e =>
      e.statusChanges.isEmpty || (decide (result.autoCancelledItems = e.turnedCancelled.map OrderItem.summary) &&
        (e.after.itemsOf 10).all (fun i => !i.isUnserved) &&
        e.turnedCancelled.map OrderItem.status == [.cooking]))
    (steps 0 15 ++ steps 2 1 ++ steps 1 4 ++ steps 2 10) (by decide +kernel)
  obtain ⟨result, hres, hc⟩ := (Option.any_eq_true _ _).mp hc
  obtain ⟨r, hr₂, hresult⟩ := Option.bind_eq_some_iff.mp hres
  have ha := answer_of_response (hr₂.trans (congrArg some (Response.asCheckout_eq hresult)))
  obtain ⟨hb, e, post, hh, -, hch, hiff⟩ := (closing_commit hr).2 2 _ 10 _ ha rfl
  have he := List.all_eq_true.mp hc e (by simp [hh])
  obtain ⟨a, hch'⟩ := hch
  simp only [hch', List.isEmpty_cons, Bool.false_or, Bool.and_eq_true, decide_eq_true_eq, List.all_eq_true,
    Bool.not_eq_true', beq_iff_eq] at he
  obtain ⟨⟨hreport, hserved⟩, hturned⟩ := he
  exact ⟨p, hr, hb, e, post, hh, ⟨a, hch'⟩, hturned, hserved, hiff.mp ⟨hreport, hserved⟩⟩

/-- The guest's clock shows the time at which the session was opened. The order waits for no lock
and is committed after the checkout has looked for items to cancel. -/
theorem closing_commit_fails : ¬ ∀ p, cafe.Reaches cafeRace p → ∀ e ∈ p.state.history, ∀ k a b,
    (k, a, b) ∈ e.statusChanges → b ≠ .opened → ∀ i ∈ e.after.itemsOf k, i.status.unserved = false := by
  intro h
  obtain ⟨p, hr, hc⟩ := cafe.reaches_play cafeRace
    (fun p => p.state.history.any fun e => decide (e.statusChanges = [(10, .opened, .closed)]) &&
      (e.after.itemsOf 10).any OrderItem.isUnserved)
    (steps 0 10 ++ steps 1 6 ++ steps 0 1 ++ steps 1 1) (by decide +kernel)
  obtain ⟨e, he, hc⟩ := List.any_eq_true.mp hc
  obtain ⟨hch, hu⟩ := Bool.and_eq_true_iff.mp hc
  obtain ⟨i, hi, hu⟩ := List.any_eq_true.mp hu
  have hserved := h p hr e he 10 .opened .closed (by simp [of_decide_eq_true hch]) (by simp) i hi
  rw [OrderItem.isUnserved, hserved] at hu
  cases hu

end Closing

end QOrder
