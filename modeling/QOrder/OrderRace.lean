import Mathlib.Data.List.Induction
import Mathlib.Data.List.Infix
import QOrder.SessionLock

/-! The open check of an order and its insertion are separate statements. An order that
updates its session is committed to whatever the session has become by then. One whose
clock shows the `last_activity_at` it has loaded sends no update, and is committed to
whatever the session has become by the commit. -/

namespace QOrder

open KeyedTable Concurrency

variable {n : Nat} {owner : Uuid → Uuid} {req : Fin n → Request}

/-- The event adds an order or an item to the session. -/
def Event.addsTo (e : Event n) (sessionId : Uuid) : Prop :=
  (∃ o ∈ e.after.orders, lookup o.id e.before.orders = none ∧ o.tableSessionId = sessionId) ∨
    e.addsItem sessionId

/-- Orders and items are only added to open sessions. -/
def OrdersJoinOpen (h : List (Event n)) : Prop :=
  ∀ e ∈ h, ∀ k, e.addsTo k → e.after.statusOf k = some .opened

/-- The last event that has changed the status of the session. -/
def lastChange (sessionId : Uuid) (h : List (Event n)) : Option (Event n) :=
  h.reverse.find? fun e => e.before.statusOf sessionId != e.after.statusOf sessionId

/-- The client has loaded the open session with a `last_activity_at` that its clock showed again,
and since then the session has been taken out of use. -/
def Overtaken (t : Fin n) (sessionId : Uuid) (h : List (Event n)) : Prop :=
  ∃ h₁ r h₂, h = h₁ ++ r :: h₂ ∧ r.client = t ∧
    (∃ s ∈ r.loads sessionId, s.status = .opened ∧ ReadAppClock s.lastActivityAt (own t h)) ∧
    ∃ f ∈ lastChange sessionId h₂, f.after.statusOf sessionId ≠ some .opened

instance (q : Stmt) : Decidable (q = .appNow) :=
  match q with
  | .appNow => isTrue rfl
  | .query _ | .command _ | .commit | .rollback | .publish _ _ => isFalse nofun

instance (at_ : Timestamp) (l : List (Event n)) : Decidable (ReadAppClock at_ l) :=
  inferInstanceAs (Decidable (∃ e ∈ l, e.stmt = .appNow ∧ e.appClock = at_))

theorem overtaken_iff {t : Fin n} {k : Uuid} {h : List (Event n)} : Overtaken t k h ↔
    ∃ rest ∈ h.tails, ∃ r ∈ rest.head?, r.client = t ∧
      (∃ s ∈ r.loads k, s.status = .opened ∧ ReadAppClock s.lastActivityAt (own t h)) ∧
      ∃ f ∈ lastChange k rest.tail, f.after.statusOf k ≠ some .opened := by
  constructor
  · rintro ⟨h₁, r, h₂, rfl, hr⟩
    exact ⟨r :: h₂, (List.mem_tails _ _).mpr (List.suffix_append _ _), r, rfl, hr⟩
  · rintro ⟨rest, hm, r, hr, h⟩
    obtain ⟨h₁, rfl⟩ := (List.mem_tails _ _).mp hm
    cases rest with
    | nil => cases hr
    | cons x h₂ =>
      obtain rfl : x = r := Option.some.inj hr
      exact ⟨h₁, x, h₂, rfl, h⟩

instance (t : Fin n) (sessionId : Uuid) (h : List (Event n)) : Decidable (Overtaken t sessionId h) :=
  decidable_of_iff _ overtaken_iff.symm

/-- An order's update meets an open session; where it commits, its session has not been taken
out of use since an order that sends no update has loaded it. -/
def stillOpen (t : Fin n) (q : Stmt) (σ : Sys n) : Bool :=
  match q with
  | .command (.setLastActivity sessionId _) => σ.data.statusOf sessionId == some .opened
  | .commit => (σ.writes t).orders.all fun o => !decide (Overtaken t o.tableSessionId σ.history)
  | _ => true

section Status

variable {h h₁ h₂ : List (Event n)} {d d' : Data} {r : Event n} {k : Uuid}

/-- The status along a history is the one the last change of it has set. -/
theorem statusOf_along (hf : Follows Event.before Event.after d h d') :
    d'.statusOf k = ((lastChange k h).map fun f => f.after.statusOf k).getD (d.statusOf k) := by
  induction h using List.reverseRecOn generalizing d' with
  | nil => exact congrArg (fun d => d.statusOf k) (Eq.symm hf)
  | append_singleton h e ih =>
    obtain ⟨m, hm, rfl, rfl⟩ := follows_append.mp hf
    rw [lastChange, List.reverse_append, List.reverse_singleton, List.singleton_append, List.find?_cons]
    cases hch : e.before.statusOf k != e.after.statusOf k with
    | true => rfl
    | false =>
      have hsame : e.before.statusOf k = e.after.statusOf k := by simpa using hch
      exact hsame.symm.trans (ih hm)

theorem status_of_loads {s : TableSession} (hl : r.loads k = some s) : r.before.statusOf k = some s.status := by
  unfold Event.loads at hl
  split at hl
  · rw [Data.statusOf, (Option.filter_eq_some_iff.mp hl).1]
    rfl
  · split at hl
    · rename_i hk
      rw [Data.statusOf, ← hk, hl]
      rfl
    · cases hl
  · cases hl

theorem not_commit_of_loads {s : TableSession} (hl : r.loads k = some s) : r.isCommit = false := by
  unfold Event.loads at hl
  unfold Event.isCommit
  cases hst : r.stmt <;> simp_all

theorem exec_new_order {t : Fin n} {q : Stmt} {σ σ' : Sys n} {r : Except DbError q.Resp} (hx : Exec t q σ r σ')
    {o : Order} (ho : o ∈ σ'.data.orders) (hn : o ∉ σ.data.orders) : q = .commit ∧ o ∈ (σ.writes t).orders := by
  cases hx with
  | kill hq => exact absurd ho hn
  | perform hb =>
    cases q with
    | commit => exact ⟨rfl, (mem_of_mem_overlay ho).resolve_right hn⟩
    | command c =>
      simp only [Sys.perform, Sys.answer] at ho
      split at ho <;> exact absurd ho hn
    | _ => exact absurd ho hn

end Status

section Commit

variable {D : Deployment owner} {p : Clients n} {hb post : List (Event n)} {e : Event n} {k : Uuid} {h : Holding}

theorem Committed.order_of_addsTo (hc : Committed owner req hb e h) (ha : e.addsTo k) :
    ∃ o ∈ e.after.orders, lookup o.id e.before.orders = none ∧ o.tableSessionId = k ∧
      ∃ items, h.Places o items := by
  rcases ha with ⟨o, ho, hn, rfl⟩ | ha
  · rw [hc.after] at ho
    exact ⟨o, hc.after ▸ ho, hn, rfl, Holding.order_new hc.ok ho hn⟩
  · obtain ⟨o, items, hp, rfl⟩ := hc.order_of_addsItem ha
    have ho : lookup o.id e.after.orders = some o := by
      simp [hc.after, hp.writes_orders, lookup_singleton]
    exact ⟨o, mem_of_lookup ho, (hp.newOrder hc.valid).orderNew, rfl, items, hp⟩

theorem Entry.commit_of_addsTo (he : Entry owner req hb e) (ha : e.addsTo k) : ∃ h, Committed owner req hb e h := by
  refine he.committed ?_
  rcases ha with ⟨o, ho, hn, -⟩ | ha
  · by_contra hc
    rw [he.other (by simpa using hc), he.ok.mem_orders] at ho
    rw [ho] at hn
    cases hn
  · exact he.commit_of_addsItem ha

/-- At its commit the session of an order that has updated it has the status it had at the update. -/
theorem Committed.status_at_update {o : Order} {items : List OrderItem} {s : TableSession} {at_ : Timestamp}
    (hc : Committed owner req hb e (.ordered o items s at_)) :
    ∃ u ∈ own e.client hb, u.stmt = .command (.setLastActivity s.id at_) ∧
      e.after.statusOf s.id = u.before.statusOf s.id := by
  have hj := hc.justified
  cases hq : req e.client with
  | createOrder qrToken body =>
    rw [hq] at hj
    obtain ⟨-, ⟨u, hu, hst, -, hl⟩, -⟩ := hj
    refine ⟨u, hu, hst, ?_⟩
    rw [hc.after]
    simp [Data.statusOf, hl, Holding.writes, lookup_singleton]
  | _ => simp [hq, Justified] at hj

/-- The session of an order that has sent no update is open at the commit unless it has been
taken out of use since it was loaded. -/
theorem Committed.status_overtaken {o : Order} {items : List OrderItem}
    (hc : Committed owner req hb e (.ordering o items)) (hr : D.Reaches req p)
    (hh : p.state.history = hb ++ e :: post) :
    Unchanged o.tableSessionId (own e.client hb) ∧
      (e.after.statusOf o.tableSessionId = some .opened ↔ ¬ Overtaken e.client o.tableSessionId hb) := by
  have hj := hc.justified
  cases hq : req e.client with
  | createOrder qrToken body =>
    rw [hq] at hj
    refine ⟨hj.2, ?_⟩
    have hsame : e.after.statusOf o.tableSessionId = e.before.statusOf o.tableSessionId := by
      rw [hc.after]
      simp [Data.statusOf, Holding.writes]
    have hf := hr.inv.follows
    rw [hh] at hf
    -- From any event that has loaded the session open, its last change decides.
    have status {h₁ h₂ : List (Event n)} {r : Event n} {s : TableSession} (hb' : hb = h₁ ++ r :: h₂)
        (hl : r.loads o.tableSessionId = some s) (ho : s.status = .opened) :
        e.before.statusOf o.tableSessionId =
          ((lastChange o.tableSessionId h₂).map fun f => f.after.statusOf o.tableSessionId).getD (some .opened) := by
      obtain ⟨hb'', -, hen⟩ := hr.entry (e := r) (by simp [hh, hb'])
      have hstart := status_of_loads hl
      rw [ho, ← hen.other (not_commit_of_loads hl)] at hstart
      rw [← hstart]
      exact statusOf_along (hb' ▸ hf.split.1).split.2
    rw [hsame]
    constructor
    · rintro hopen ⟨h₁, r, h₂, hb', -, ⟨s, hl, ho, -⟩, f, hf, hne⟩
      have hstatus := status hb' hl ho
      rw [hopen, Option.mem_def.mp hf] at hstatus
      exact hne hstatus.symm
    · intro hno
      obtain ⟨r, hm, s, hl, ho, hread⟩ := hj.2
      obtain ⟨hm, hcl⟩ := List.mem_filter.mp hm
      obtain ⟨h₁, h₂, hb'⟩ := List.append_of_mem hm
      rw [status hb' hl ho]
      cases hlast : lastChange o.tableSessionId h₂ with
      | none => rfl
      | some f =>
        by_contra hne
        exact hno ⟨h₁, r, h₂, hb', of_decide_eq_true hcl, ⟨s, hl, ho, hread⟩, f, hlast, hne⟩
  | _ => simp [hq, Justified] at hj

end Commit

section Orders

variable {D : Deployment owner} {p : Clients n}

theorem orders_join_open :
    (∀ p, D.Reaches req p → ∀ hb e post, p.state.history = hb ++ e :: post → ∀ k, e.addsTo k →
      (∃ u ∈ own e.client hb, ∃ at_, u.stmt = .command (.setLastActivity k at_) ∧
        (e.after.statusOf k = some .opened ↔ u.before.statusOf k = some .opened)) ∨
      Unchanged k (own e.client hb) ∧
        (e.after.statusOf k = some .opened ↔ ¬ Overtaken e.client k hb)) ∧
    (∀ p, ((machine owner n).restrict fun t q σ => stillOpen t q σ).Reachable (D.start req) p →
      OrdersJoinOpen p.state.history) := by
  constructor
  · intro p hr hb e post hh k ha
    obtain ⟨h, hc⟩ := (hr.inv.logged hb e post hh).commit_of_addsTo ha
    obtain ⟨o, -, -, rfl, items, hp⟩ := hc.order_of_addsTo ha
    cases hp with
    | ordering => exact .inr (hc.status_overtaken hr hh)
    | ordered s at_ =>
      obtain ⟨u, hu, hst, heq⟩ := hc.status_at_update
      rw [hc.valid.2.2]
      exact .inl ⟨u, hu, at_, hst, by rw [heq]⟩
  · intro p hr e he k ha
    have hreach : D.Reaches req p := hr.of_restrict
    have hallowed := restricted_events (P := fun hb u =>
      (∀ k at_, u.stmt = .command (.setLastActivity k at_) → u.before.statusOf k = some .opened) ∧
      ∀ o ∈ u.after.orders, lookup o.id u.before.orders = none → ¬ Overtaken u.client o.tableSessionId hb) ?_ hr
    · obtain ⟨hb, post, hh⟩ := List.append_of_mem he
      obtain ⟨h, hc⟩ := (hreach.inv.logged hb e post hh).commit_of_addsTo ha
      obtain ⟨o, ho, hn, rfl, items, hp⟩ := hc.order_of_addsTo ha
      cases hp with
      | ordering => exact (hc.status_overtaken hreach hh).2.mpr ((hallowed hb e post hh).2 o ho hn)
      | ordered s at_ =>
        obtain ⟨u, hu, hst, heq⟩ := hc.status_at_update
        rw [hc.valid.2.2, heq]
        obtain ⟨h₁, h₂, rfl⟩ := List.append_of_mem (List.mem_of_mem_filter hu)
        exact (hallowed h₁ u (h₂ ++ e :: post) (by simpa using hh)).1 s.id at_ hst
    · intro t q σ r σ' u hC hx hh
      obtain ⟨u', hh', hb, ha, rfl, hst⟩ := exec_event hx
      obtain rfl : u = u' := (List.cons.inj (List.append_cancel_left (hh.symm.trans hh'))).1
      refine ⟨fun k at_ hk => ?_, fun o ho hn => ?_⟩
      · rw [← hst, hk] at hC
        rw [hb]
        simpa [stillOpen] using hC
      · have hnew : o ∉ σ.data.orders := fun hm => lookup_eq_none.mp hn o (hb ▸ hm) rfl
        obtain ⟨rfl, hm⟩ := exec_new_order hx (ha ▸ ho) hnew
        exact of_decide_eq_false (by simpa using List.all_eq_true.mp hC o hm)

/-- One order is taken while its session is open. -/
theorem orders_join_open_cafe : ∃ p, cafe.Reaches (fun _ : Fin 1 => cafeOrder) p ∧
    OrdersJoinOpen p.state.history ∧ p.state.data.orders ≠ [] := by
  obtain ⟨p, hr, hc⟩ := reachable_playUnder (fun _ => 1) (cafe.start fun _ : Fin 1 => cafeOrder)
    stillOpen (fun p => !p.state.data.orders.isEmpty) (steps 0 11) (by decide)
  exact ⟨p, hr.of_restrict, orders_join_open.2 p hr, by simpa using hc⟩

def cafeRace : Fin 2 → Request
  | 0 => cafeOrder
  | 1 => .checkoutSession cafeStaff 10

/-- The table is checked out while the guest's order is looked up in the menu. -/
theorem orders_join_open_fails : ¬ ∀ p, cafe.Reaches cafeRace p → OrdersJoinOpen p.state.history := by
  intro h
  obtain ⟨p, hr, hc⟩ := cafe.reaches_play cafeRace
    (fun p => p.state.history.any fun e => e.after.orders.any fun o =>
      (lookup o.id e.before.orders).isNone && e.after.statusOf o.tableSessionId == some .closed)
    (steps 0 7 ++ steps 1 10 ++ .tick 1 1 :: steps 0 5) (by decide)
  obtain ⟨e, he, hc⟩ := List.any_eq_true.mp hc
  obtain ⟨o, ho, hc⟩ := List.any_eq_true.mp hc
  obtain ⟨hn, hs⟩ := Bool.and_eq_true_iff.mp hc
  have hopen := h p hr e he o.tableSessionId (.inl ⟨o, ho, Option.isNone_iff_eq_none.mp hn, rfl⟩)
  rw [eq_of_beq hs] at hopen
  cases hopen

end Orders

end QOrder
