import QOrder.CallRace
import QOrder.Dues
import QOrder.Tenancy

/-! What the books never lose. Whatever the clients do and however their statements interleave, no
row is deleted, no line is added to an order that has been placed, and no column changes but those of
a row's own life. -/

namespace QOrder

open KeyedTable Concurrency

/-- The columns of a session that no operation changes. -/
def TableSession.asOpened (s : TableSession) : TableSession :=
  { s with status := .opened, lastActivityAt := s.openedAt, closedAt := none, abandonedAt := none, totalAmount := none }

def OrderItem.asOrdered (i : OrderItem) : OrderItem :=
  { i with
    status := .pending, servedBy := none, servedAt := none
    cancelledBy := none, cancelledAt := none, cancelReason := none }

def StaffCall.asCalled (c : StaffCall) : StaffCall :=
  { c with status := .pending, acknowledgedAt := none, acknowledgedBy := none }

namespace Data

/-- The later data have every row of the earlier ones, with its lasting columns. -/
structure Remembers (d d' : Data) : Prop where
  session : ∀ s ∈ d.sessions, ∃ s' ∈ d'.sessions, s'.asOpened = s.asOpened
  order : ∀ o ∈ d.orders, o ∈ d'.orders
  lines : ∀ o ∈ d.orders, ∀ i' ∈ d'.items, i'.orderId = o.id → ∃ i ∈ d.items, i'.asOrdered = i.asOrdered
  item : ∀ i ∈ d.items, ∃ i' ∈ d'.items, i'.asOrdered = i.asOrdered
  call : ∀ c ∈ d.calls, ∃ c' ∈ d'.calls, c'.asCalled = c.asCalled

variable {d d' d'' : Data}

theorem Remembers.refl (d : Data) : d.Remembers d where
  session s hs := ⟨s, hs, rfl⟩
  order _ ho := ho
  lines _ _ i hi _ := ⟨i, hi, rfl⟩
  item i hi := ⟨i, hi, rfl⟩
  call c hc := ⟨c, hc, rfl⟩

theorem Remembers.trans (h : d.Remembers d') (h' : d'.Remembers d'') : d.Remembers d'' where
  session s hs := by
    obtain ⟨s', hs', heq⟩ := h.session s hs
    obtain ⟨s'', hs'', heq'⟩ := h'.session s' hs'
    exact ⟨s'', hs'', heq'.trans heq⟩
  order o ho := h'.order o (h.order o ho)
  lines o ho i'' hi'' hid := by
    obtain ⟨i', hi', heq'⟩ := h'.lines o (h.order o ho) i'' hi'' hid
    have hid' : i'.orderId = o.id := (congrArg OrderItem.orderId heq').symm.trans hid
    obtain ⟨i, hi, heq⟩ := h.lines o ho i' hi' hid'
    exact ⟨i, hi, heq'.trans heq⟩
  item i hi := by
    obtain ⟨i', hi', heq⟩ := h.item i hi
    obtain ⟨i'', hi'', heq'⟩ := h'.item i' hi'
    exact ⟨i'', hi'', heq'.trans heq⟩
  call c hc := by
    obtain ⟨c', hc', heq⟩ := h.call c hc
    obtain ⟨c'', hc'', heq'⟩ := h'.call c' hc'
    exact ⟨c'', hc'', heq'.trans heq⟩

end Data

section Steps

variable {n : Nat} {owner : Uuid → Uuid} {req : Fin n → Request} {hb : List (Event n)} {e : Event n}
  {h : Holding} {now : Timestamp} {d : Data} {s s' : TableSession} {i i' : OrderItem} {c c' : StaffCall}

theorem OrderItem.Move.asOrdered_eq (hm : i.Move now i') : i'.asOrdered = i.asOrdered := by
  cases hm <;> rfl

theorem Holding.SessionStep.asOpened_eq (hs : h.SessionStep now d s s') : s'.asOpened = s.asOpened := by
  cases hs with
  | left items kind => cases kind <;> rfl
  | _ => rfl

theorem Holding.ItemStep.asOrdered_eq (hi : h.ItemStep now d i i') : i'.asOrdered = i.asOrdered := by
  cases hi with
  | moved s hm hs => exact hm.asOrdered_eq
  | _ => rfl

theorem Holding.CallStep.asCalled_eq (hv : h.Valid owner now d) (hc : h.CallStep now c c') :
    c'.asCalled = c.asCalled := by
  cases hc with
  | acked =>
    obtain ⟨-, at_, by_, rfl⟩ := hv
    rfl
  | _ => rfl

/-- One commit forgets nothing. -/
theorem Committed.remembers (hc : Committed owner req hb e h) : e.before.Remembers e.after := by
  have hok := hc.ok
  have hok' := hc.made.after_ok
  have hgrows := hc.made.grows
  have same {i i' : OrderItem} (hi : lookup i'.id e.before.items = some i) (hi' : i' ∈ e.after.items) :
      i'.asOrdered = i.asOrdered := by
    obtain ⟨i₁, hi₁, hstep⟩ := Holding.item_step hok hc.valid hc.complete hi
    rw [← hc.after, hok'.mem_items.mp hi'] at hi₁
    cases hi₁
    exact hstep.asOrdered_eq
  refine ⟨fun s hs => ?_, fun o ho => ?_, fun o ho i' hi' hid => ?_, fun i hi => ?_, fun c hcall => ?_⟩
  · obtain ⟨s', hs', hstep⟩ := Holding.session_step hc.valid hc.complete (hok.mem_sessions.mp hs)
    rw [← hc.after] at hs'
    exact ⟨s', mem_of_lookup hs', hstep.asOpened_eq⟩
  · exact mem_of_lookup (hgrows.order (hok.mem_orders.mp ho))
  · cases hl : lookup i'.id e.before.items with
    | some i => exact ⟨i, mem_of_lookup hl, same hl hi'⟩
    | none =>
      -- a new line comes with a new order
      rw [hc.after] at hi'
      obtain ⟨o', items, hp, hmem⟩ := Holding.item_new hok hc.valid hi' hl hc.complete
      have hnew := hp.newOrder hc.valid
      have ho' : lookup o'.id e.before.orders = some o := by
        rw [← hnew.itemOrder i' hmem, hid]
        exact hok.mem_orders.mp ho
      rw [hnew.orderNew] at ho'
      cases ho'
  · obtain ⟨i', hi', hstep⟩ := Holding.item_step hok hc.valid hc.complete (hok.mem_items.mp hi)
    rw [← hc.after] at hi'
    exact ⟨i', mem_of_lookup hi', hstep.asOrdered_eq⟩
  · obtain ⟨c', hc', hstep⟩ := Holding.call_step hok hc.valid hc.complete (hok.mem_calls.mp hcall)
    rw [← hc.after] at hc'
    exact ⟨c', mem_of_lookup hc', hstep.asCalled_eq hc.valid⟩

end Steps

section Runs

variable {n : Nat} {owner : Uuid → Uuid} {req : Fin n → Request} {D : Deployment owner} {p : Clients n}

theorem Entry.remembers {hb : List (Event n)} {e : Event n} (he : Entry owner req hb e) :
    e.before.Remembers e.after := by
  rcases he.unchanged_or_committed with ha | ⟨h, hc⟩
  · rw [ha]
    exact .refl _
  · exact hc.remembers

/-- Every state the clients have committed is remembered by the present one. -/
theorem records_kept (hr : D.Reaches req p) : ∀ d ∈ D.committed p, d.Remembers p.state.data := by
  have stretch {d d' : Data} {l : List (Event n)} (hl : l ⊆ p.state.history)
      (hf : Follows Event.before Event.after d l d') : d.Remembers d' :=
    hf.rel Data.Remembers.refl (fun hab hbc => hab.trans hbc) fun e he => by
      obtain ⟨hb, -, hen⟩ := hr.entry (hl he)
      exact hen.remembers
  intro d hd
  rcases List.mem_cons.mp hd with rfl | hd
  · exact stretch (List.Subset.refl _) hr.inv.follows
  · obtain ⟨e, he, rfl⟩ := List.mem_map.mp hd
    obtain ⟨pre, post, hh⟩ := List.append_of_mem he
    have hf := hr.inv.follows
    rw [hh] at hf
    refine stretch (fun x hx => ?_) hf.split.2
    rw [hh]
    exact List.mem_append_right _ (List.mem_cons_of_mem _ hx)

/-- The order of the first guest, after the dish is served and paid for. -/
theorem records_kept_cafe : ∃ p, cafeLavish.Reaches (cafePortions 1 (by decide)) p ∧
    (∃ s ∈ p.state.data.sessions, s.status = .closed) ∧
    ∃ d ∈ cafeLavish.committed p, (∃ i ∈ d.items, i.status = .pending) ∧ d.Remembers p.state.data := by
  obtain ⟨p, hr, hc⟩ := cafeLavish.reaches_play (cafePortions 1 (by decide))
    (fun p => (p.state.data.sessions.any fun s => s.status = .closed) &&
      (cafeLavish.committed p).any fun d => d.items.any fun i => i.status = .pending)
    (steps 0 15 ++ steps 1 7 ++ steps 2 9) (by decide +kernel)
  obtain ⟨hclosed, hpending⟩ := Bool.and_eq_true_iff.mp hc
  obtain ⟨s, hs, hst⟩ := List.any_eq_true.mp hclosed
  obtain ⟨d, hd, hitems⟩ := List.any_eq_true.mp hpending
  obtain ⟨i, hi, hist⟩ := List.any_eq_true.mp hitems
  exact ⟨p, hr, ⟨s, hs, of_decide_eq_true hst⟩, d, hd, ⟨i, hi, of_decide_eq_true hist⟩, records_kept hr d hd⟩

end Runs

end QOrder
