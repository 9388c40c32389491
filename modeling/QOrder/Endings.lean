import QOrder.Settlement

/-! The ways of closing an open session: by checkout, or after the sweep has abandoned it. They
end with the same items and the same total. -/

namespace QOrder

open KeyedTable Concurrency

/-- The operation runs next, and to its end. -/
def Request.Serves {owner : Uuid → Uuid} (r : Request) : Deployment owner → Deployment owner → Prop :=
  Operates fun r' _ => r' = r

/-- The requests that call `get_or_open`. -/
def Request.opensSession : Request → Bool
  | .getSessionSnapshot _ | .createOrder _ _ | .cancelItemCustomer _ _ _ | .callStaff _ | .openTable _ _
  | .wsCustomer _ => true
  | _ => false

/-- The ways of closing the session, with no other operation in between. -/
inductive ClosedBy {owner : Uuid → Uuid} (s : TableSession) (D : Deployment owner) : Deployment owner → Prop
  | checkout {D' : Deployment owner} (user : TokenPayload)
      (h : (Request.checkoutSession user s.id).Serves D D') : ClosedBy s D D'
  | restored {D₁ D₂ D' : Deployment owner} (user user' : TokenPayload) (hsweep : Request.runSweep.Serves D D₁)
      (hrestore : (Request.restoreSession user s.id).Serves D₁ D₂)
      (h : (Request.checkoutSession user' s.id).Serves D₂ D') : ClosedBy s D D'
  | direct {D₁ D₂ D' : Deployment owner} (user : TokenPayload) (opener : Request) (ho : opener.opensSession = true)
      (hsweep : Request.runSweep.Serves D D₁)
      (ha : ∃ x ∈ D₁.data.sessions, x.id = s.id ∧ x.status = .abandoned) (hopen : opener.Serves D₁ D₂)
      (h : (Request.restoreSession user s.id).Serves D₂ D') : ClosedBy s D D'

variable {owner : Uuid → Uuid} {r : Request} {D D' D₁ D₂ : Deployment owner} {p : Clients 1}
  {hb post : List (Event 1)} {e : Event 1} {h : Holding} {d : Data} {now : Timestamp} {k : Uuid}
  {s s₁ s₂ : TableSession} {l : List OrderItem} {items : List OrderItem}

namespace OrderItem

/-- What becomes of an item when its session ends, apart from the reason and the time. -/
def outcome (i : OrderItem) : OrderItem :=
  if i.isUnserved then
    { i with status := .cancelled, cancelledBy := some .system, cancelledAt := none, cancelReason := none }
  else if i.status = .cancelled then { i with cancelledAt := none, cancelReason := none }
  else i

/-- An item without the time and the reason of its cancellation. -/
def undated (i : OrderItem) : OrderItem := { i with cancelledAt := none, cancelReason := none }

theorem outcome_cancel (i : OrderItem) (reason : String) :
    (i.cancelIfUnserved now reason).outcome = i.outcome := by
  unfold cancelIfUnserved
  by_cases hu : i.isUnserved = true
  · have hcancelled : (i.cancel .system now (some reason)).isUnserved = false := rfl
    rw [if_pos hu, outcome, outcome, hcancelled, if_pos hu]
    rfl
  · rw [if_neg hu]

theorem outcome_of_served {i : OrderItem} (h : i.isUnserved = false) :
    i.outcome = if i.status = .cancelled then i.undated else i := by
  simp [outcome, h, undated]

end OrderItem

def served (l : List OrderItem) : List OrderItem := l.filter fun i => i.status == .served

/-- The cancelled items, whenever and for whatever reason they were cancelled. -/
def cancelled (l : List OrderItem) : List OrderItem :=
  (l.filter fun i => i.status == .cancelled).map OrderItem.undated

theorem served_outcome (l : List OrderItem) : served (l.map OrderItem.outcome) = served l := by
  induction l with
  | nil => rfl
  | cons i l ih =>
    unfold served at ih ⊢
    rw [List.map_cons, List.filter_cons, List.filter_cons, ih]
    cases hs : i.status <;> simp [OrderItem.outcome, OrderItem.isUnserved, OrderItemStatus.unserved, hs]

theorem cancelled_outcome (h : ∀ i ∈ l, i.isUnserved = false) :
    (l.map OrderItem.outcome).filter (fun i => i.status == .cancelled) = cancelled l := by
  induction l with
  | nil => rfl
  | cons i l ih =>
    have hi := h i List.mem_cons_self
    have hl := ih fun x hx => h x (List.mem_cons_of_mem _ hx)
    unfold cancelled at hl ⊢
    rw [List.map_cons, List.filter_cons, List.filter_cons, hl, OrderItem.outcome_of_served hi]
    cases hs : i.status <;> simp [OrderItem.undated, hs]

theorem servedTotal_outcome (l : List OrderItem) : servedTotal (l.map OrderItem.outcome) = servedTotal l :=
  congrArg (fun l => (l.map OrderItem.amount).sum) (served_outcome l)

/-- The items of a session end as the ones it had, and its total, once it is closed, is theirs. -/
structure Data.Ends (d : Data) (k : Uuid) (outcomes : List OrderItem) : Prop where
  outcomes : (d.itemsOf k).map OrderItem.outcome = outcomes
  closed : ∀ s, lookup k d.sessions = some s → s.status = .closed →
    s.totalAmount = some (servedTotal (d.itemsOf k)) ∧ ∀ i ∈ d.itemsOf k, i.isUnserved = false

/-- The commit changes no item of the session but by its end. -/
def Holding.Spares (k : Uuid) : Holding → Prop
  | moved _ _ s => s.id ≠ k
  | ordering o _ => o.tableSessionId ≠ k
  | ordered _ _ s _ => s.id ≠ k
  | _ => True

theorem Holding.Spares.not_joins (hs : h.Spares k) : ¬ h.Joins k := by
  intro hj
  obtain ⟨o, items, rfl, -, hk⟩ := hj.places
  exact hs hk

section Commit

/-- A commit keeps what becomes of the items of a session. -/
theorem Committed.outcomes (hc : Committed owner (fun _ => r) hb e h) (hr : D.Reaches (fun _ => r) p)
    (hh : p.state.history = hb ++ e :: post) (hs : h.Spares k) :
    (e.after.itemsOf k).map OrderItem.outcome = (e.before.itemsOf k).map OrderItem.outcome := by
  have hafter := hc.after
  cases hk : lookup k (h.writes e.now e.before).sessions with
  | none =>
    have hitems := Holding.itemsOf_commit hc.ok hc.valid hc.complete hk hs.not_joins
    rw [hafter, hitems]
  | some w =>
    have hcomplete := hc.complete
    have hwrites {x : TableSession} (hx : lookup k [x] = some w) : x.id = k := by
      rw [lookup_singleton] at hx
      split at hx
      · assumption
      · cases hx
    cases h with
    | opening x => rw [hafter, Data.itemsOf_of_nil rfl rfl]
    | reopening x => rw [hafter, Data.itemsOf_of_nil rfl rfl]
    | leaving x items' kind stage =>
      cases stage with
      | dismissed =>
        have hx : x.id = k := by
          have hrow := hwrites (x := kind.row e.now e.before x .dismissed) hk
          rwa [Leave.row_id] at hrow
        have hall := hc.items_left hr hh
        have hitems := leaving_itemsOf_all hc.ok hc.valid hall
        rw [hx] at hall hitems
        rw [hafter, hitems, hall, List.map_map]
        exact List.map_congr_left fun i _ => i.outcome_cancel _
      | _ => exact absurd hcomplete (by simp [Holding.Complete])
    | moved i i' x => exact absurd (hwrites (x := x.touch e.now) hk) hs
    | ordering o items' => cases hk
    | ordered o items' x at_ => exact absurd (hwrites (x := x.touch at_) hk) hs
    | calling x c => rw [hafter, Data.itemsOf_of_nil rfl rfl]
    | acking c c' => cases hk
    | _ => exact absurd hcomplete (by simp [Holding.Complete])

theorem Committed.ends (hc : Committed owner (fun _ => r) hb e h) (hr : D.Reaches (fun _ => r) p)
    (hh : p.state.history = hb ++ e :: post) (hs : h.Spares k)
    (hend : e.before.Ends k items) : e.after.Ends k items := by
  refine ⟨by rw [hc.outcomes hr hh hs, hend.outcomes], fun w hw hcl => ?_⟩
  have hok : e.after.Ok owner := by
    rw [hc.after]
    exact h.commit_ok hc.ok hc.valid hc.complete
  have hwk : w.id = k := key_of_lookup hw
  cases hv : lookup k e.before.sessions with
  | none =>
    have hmem : w ∈ (e.before.overlay (h.writes e.now e.before)).sessions := by
      rw [← hc.after]
      exact mem_of_lookup hw
    obtain rfl := Holding.session_new hc.ok hc.valid hc.complete hmem (by rw [hwk, hv])
    rw [hc.valid.opened] at hcl
    cases hcl
  | some v =>
    have hvk : v.id = k := key_of_lookup hv
    obtain ⟨w', hw', hstep⟩ := hc.session hv
    rw [hw] at hw'
    cases hw'
    cases hstep with
    | kept hk =>
      rw [hvk] at hk
      have hitems := Holding.itemsOf_commit hc.ok hc.valid hc.complete hk hs.not_joins
      rw [hc.after, hitems]
      exact hend.closed w hv hcl
    | reopened => cases hcl
    | left items' kind =>
      have hkind : kind = .close := by
        rw [Leave.row_status] at hcl
        cases kind with
        | close => rfl
        | abandon => cases hcl
      rw [← hvk, hc.after]
      exact ⟨leaving_total hc.ok hc.valid hkind,
        fun i hi => leaving_no_unserved hc.ok hc.valid (hc.items_left hr hh) hi⟩
    | moved i i' => exact absurd hvk hs
    | ordered o items' at_ => exact absurd hvk hs
    | called c =>
      have hitems : e.after.itemsOf k = e.before.itemsOf k := by rw [hc.after, Data.itemsOf_of_nil rfl rfl]
      rw [hitems]
      exact hend.closed v hv hcl

end Commit

section Runs

/-- An operation that spares the session keeps its end. -/
theorem Deployment.Reaches.ends (hr : D.Reaches (fun _ => r) p) (hend : D.data.Ends k items)
    (hs : ∀ hb e post h, p.state.history = hb ++ e :: post → Committed owner (fun _ => r) hb e h →
      h.Spares k) : p.state.data.Ends k items := by
  have hkept := hr.preserved (P := fun d => d.Ends k items) hend fun hb e post h hh hc hbefore =>
    hc.ends hr hh (hs hb e post h hh hc) hbefore
  exact hkept.2

/-- The requests that only end or reopen sessions. -/
def Request.endsSession : Request → Bool
  | .checkoutSession _ _ | .restoreSession _ _ | .runSweep => true
  | _ => false

theorem Request.Serves.ends (hr : r.endsSession = true) (h : r.Serves D D') (hend : D.data.Ends k items) :
    D'.data.Ends k items := by
  obtain ⟨r', hreach, -, rfl⟩ := h
  refine hreach.ends hend fun hb e post h hh hc => ?_
  have hj := hc.justified
  cases r' with
  | checkoutSession | restoreSession | runSweep =>
    cases h <;> trivial
  | _ => cases hr

/-- An opener has met the session it changes open. -/
theorem Committed.spares_closed (hc : Committed owner (fun _ => r) hb e h) (hr : D.Reaches (fun _ => r) p)
    (hh : p.state.history = hb ++ e :: post) (ho : r.opensSession = true)
    (hw : lookup k e.before.sessions = some s) (hn : s.status ≠ .opened) : h.Spares k := by
  have hne {tableId k' : Uuid} (hseen : SeenOpen tableId k' (own e.client hb)) : k' ≠ k := by
    obtain ⟨v, hv, hopen⟩ := hseen.still_open hr hh
    rintro rfl
    rw [hw] at hv
    cases hv
    exact hn hopen
  have hj := hc.justified
  cases h with
  | moved i i' x =>
    cases r with
    | cancelItemCustomer => exact hne hj.2.2.2.1
    | setItemStatus | cancelItemStaff => cases ho
    | _ => exact hj.elim
  | ordering o items' =>
    cases r with
    | createOrder => exact hne hj.1.choose_spec
    | _ => exact hj.elim
  | ordered o items' x at_ =>
    cases r with
    | createOrder => exact hne hj.1
    | _ => exact hj.elim
  | _ => trivial

theorem Committed.stays_closed (hc : Committed owner (fun _ => r) hb e h) (ho : r.opensSession = true)
    (hw : lookup k e.before.sessions = some s) (hn : s.status ≠ .opened) :
    ∃ w, lookup k e.after.sessions = some w ∧ w.status ≠ .opened := by
  obtain ⟨w, hw', hstep⟩ := hc.session hw
  have hj := hc.justified
  refine ⟨w, hw', ?_⟩
  cases hstep with
  | reopened =>
    cases r with
    | restoreSession => cases ho
    | _ => exact hj.elim
  | left items' kind =>
    rw [Leave.row_status]
    cases kind <;> exact SessionStatus.noConfusion
  | _ => exact hn

/-- A session that is not open keeps its end while another one is opened. -/
theorem Request.Serves.ends_opener (ho : r.opensSession = true) (h : r.Serves D D')
    (hend : D.data.Ends k items) (hn : ∃ w, lookup k D.data.sessions = some w ∧ w.status ≠ .opened) :
    D'.data.Ends k items := by
  obtain ⟨r', hreach, -, rfl⟩ := h
  have hkept := hreach.preserved
    (P := fun d => d.Ends k items ∧ ∃ w, lookup k d.sessions = some w ∧ w.status ≠ .opened)
    ⟨hend, hn⟩ fun hb e post h hh hc hbefore => by
      obtain ⟨hends, w, hw, hn⟩ := hbefore
      exact ⟨hc.ends hreach hh (hc.spares_closed hreach hh ho hw hn) hends, hc.stays_closed ho hw hn⟩
  exact hkept.2.1

theorem ClosedBy.ends (h : ClosedBy s D D') (hs : s ∈ D.data.sessions) (ho : s.status = .opened) :
    D'.data.Ends s.id ((D.data.itemsOf s.id).map OrderItem.outcome) := by
  have hstart : D.data.Ends s.id ((D.data.itemsOf s.id).map OrderItem.outcome) := by
    refine ⟨rfl, fun w hw hcl => ?_⟩
    rw [D.ok.mem_sessions.mp hs] at hw
    cases hw
    rw [ho] at hcl
    cases hcl
  cases h with
  | checkout user h => exact h.ends rfl hstart
  | restored user user' hsweep hrestore h => exact h.ends rfl (hrestore.ends rfl (hsweep.ends rfl hstart))
  | @direct D₁ D₂ _ user opener hop hsweep ha hopen h =>
    obtain ⟨x, hx, hid, hab⟩ := ha
    have hl : lookup s.id D₁.data.sessions = some x := by
      rw [← hid]
      exact D₁.ok.mem_sessions.mp hx
    have hn : x.status ≠ .opened := by simp [hab]
    exact h.ends rfl (hopen.ends_opener hop (hsweep.ends rfl hstart) ⟨x, hl, hn⟩)

/-- However an open session is closed, it has the same total, the same served items and the
same cancelled ones, apart from when and why they were cancelled. -/
theorem closings_agree (hs : s ∈ D.data.sessions) (ho : s.status = .opened) (h₁ : ClosedBy s D D₁)
    (h₂ : ClosedBy s D D₂) (hs₁ : s₁ ∈ D₁.data.sessions) (hs₂ : s₂ ∈ D₂.data.sessions)
    (hid₁ : s₁.id = s.id) (hid₂ : s₂.id = s.id) (hc₁ : s₁.status = .closed) (hc₂ : s₂.status = .closed) :
    s₁.totalAmount = s₂.totalAmount ∧ served (D₁.data.itemsOf s.id) = served (D₂.data.itemsOf s.id) ∧
      cancelled (D₁.data.itemsOf s.id) = cancelled (D₂.data.itemsOf s.id) := by
  have closed {D' : Deployment owner} {w : TableSession} (h : ClosedBy s D D') (hw : w ∈ D'.data.sessions)
      (hid : w.id = s.id) (hc : w.status = .closed) :
      w.totalAmount = some (servedTotal (D.data.itemsOf s.id)) ∧
        served (D'.data.itemsOf s.id) = served (D.data.itemsOf s.id) ∧
        cancelled (D'.data.itemsOf s.id) =
          ((D.data.itemsOf s.id).map OrderItem.outcome).filter fun i => i.status == .cancelled := by
    have hends := h.ends hs ho
    have hl : lookup s.id D'.data.sessions = some w := by
      rw [← hid]
      exact D'.ok.mem_sessions.mp hw
    obtain ⟨htotal, hunserved⟩ := hends.closed w hl hc
    refine ⟨?_, ?_, ?_⟩
    · rw [htotal, ← servedTotal_outcome, hends.outcomes, servedTotal_outcome]
    · rw [← served_outcome, hends.outcomes, served_outcome]
    · rw [← cancelled_outcome hunserved, hends.outcomes]
  obtain ⟨ht₁, hv₁, hx₁⟩ := closed h₁ hs₁ hid₁ hc₁
  obtain ⟨ht₂, hv₂, hx₂⟩ := closed h₂ hs₂ hid₂ hc₂
  exact ⟨ht₁.trans ht₂.symm, hv₁.trans hv₂.symm, hx₁.trans hx₂.symm⟩

end Runs

section Schedules

def cafePair : CreateOrderRequest where
  items := [{ menuItemId := 3, quantity := 1, quantity_pos := Nat.one_pos },
    { menuItemId := 3, quantity := 2, quantity_pos := Nat.two_pos }]

/-- Two dishes are ordered, and one of them is served a minute later. -/
def cafeSeated : Sys 1 :=
  ((cafe.initial 1).serve 0 (.createOrder "ban-1" cafePair)).state.serve (seconds 60)
    (.setItemStatus cafeStaff 12 .served) |>.state

def cafeSwept : Sys 1 := (cafeSeated.serve (hours 7) .runSweep).state

def cafeCheckedOut : Sys 1 := (cafeSeated.serve (hours 7) (.checkoutSession cafeStaff 10)).state

/-- The guests come back, and pay. -/
def cafeRestored : Sys 1 :=
  (cafeSwept.serve (hours 8) (.restoreSession cafeStaff 10)).state.serve (hours 9)
    (.checkoutSession cafeStaff 10) |>.state

/-- The guests come back when others sit at their table. -/
def cafeDirect : Sys 1 :=
  (cafeSwept.serve (hours 8) (.openTable cafeStaff 2)).state.serve (hours 9)
    (.restoreSession cafeStaff 10) |>.state

theorem closings_agree_cafe : ∃ (D D₁ D₂ D₃ : Deployment fun _ => 1) (s s₁ s₂ s₃ : TableSession),
    s ∈ D.data.sessions ∧ s.status = .opened ∧ (D.data.itemsOf s.id).length = 2 ∧
      (ClosedBy s D D₁ ∧ s₁ ∈ D₁.data.sessions ∧ s₁.status = .closed) ∧
      (ClosedBy s D D₂ ∧ s₂ ∈ D₂.data.sessions ∧ s₂.status = .closed) ∧
      (ClosedBy s D D₃ ∧ s₃ ∈ D₃.data.sessions ∧ s₃.status = .closed) ∧
      (s₁.totalAmount = s₂.totalAmount ∧ served (D₁.data.itemsOf s.id) = served (D₂.data.itemsOf s.id) ∧
        cancelled (D₁.data.itemsOf s.id) = cancelled (D₂.data.itemsOf s.id)) ∧
      s₁.totalAmount = s₃.totalAmount ∧ served (D₁.data.itemsOf s.id) = served (D₃.data.itemsOf s.id) ∧
        cancelled (D₁.data.itemsOf s.id) = cancelled (D₃.data.itemsOf s.id) := by
  have start : (cafe.initial 1).Continues cafe := ⟨rfl, rfl, rfl, rfl⟩
  obtain ⟨D₀, -, h₀⟩ := start.operates (C := fun _ _ => True) 0 le_rfl (.createOrder "ban-1" cafePair) trivial
  obtain ⟨D, -, hD⟩ := h₀.operates (C := fun _ _ => True) (seconds 60) (by decide +kernel)
    (.setItemStatus cafeStaff 12 .served) trivial
  obtain ⟨D₁, hcheckout, h₁⟩ := hD.operates (C := fun r' _ => r' = _) (hours 7) (by decide +kernel)
    (.checkoutSession cafeStaff 10) rfl
  obtain ⟨Da, hsweep, ha⟩ := hD.operates (C := fun r' _ => r' = _) (hours 7) (by decide +kernel) .runSweep rfl
  obtain ⟨Db, hrestore, hb⟩ := ha.operates (C := fun r' _ => r' = _) (hours 8) (by decide +kernel)
    (.restoreSession cafeStaff 10) rfl
  obtain ⟨D₂, hpaid, h₂⟩ := hb.operates (C := fun r' _ => r' = _) (hours 9) (by decide +kernel)
    (.checkoutSession cafeStaff 10) rfl
  obtain ⟨Dc, hopen, hc⟩ := ha.operates (C := fun r' _ => r' = _) (hours 8) (by decide +kernel)
    (.openTable cafeStaff 2) rfl
  obtain ⟨D₃, hdirect, h₃⟩ := hc.operates (C := fun r' _ => r' = _) (hours 9) (by decide +kernel)
    (.restoreSession cafeStaff 10) rfl
  have hs : ∃ s ∈ cafeSeated.data.sessions, s.id = 10 ∧ s.status = .opened ∧
      (cafeSeated.data.itemsOf 10).length = 2 := by decide +kernel
  have hs₁ : ∃ s ∈ cafeCheckedOut.data.sessions, s.id = 10 ∧ s.status = .closed := by decide +kernel
  have hs₂ : ∃ s ∈ cafeRestored.data.sessions, s.id = 10 ∧ s.status = .closed := by decide +kernel
  have hs₃ : ∃ s ∈ cafeDirect.data.sessions, s.id = 10 ∧ s.status = .closed := by decide +kernel
  have hswept : ∃ s ∈ cafeSwept.data.sessions, s.id = 10 ∧ s.status = .abandoned := by decide +kernel
  rw [← show D.data = cafeSeated.data from hD.data] at hs
  rw [← show D₁.data = cafeCheckedOut.data from h₁.data] at hs₁
  rw [← show D₂.data = cafeRestored.data from h₂.data] at hs₂
  rw [← show D₃.data = cafeDirect.data from h₃.data] at hs₃
  rw [← show Da.data = cafeSwept.data from ha.data] at hswept
  obtain ⟨s, hmem, hid, ho, hlen⟩ := hs
  obtain ⟨s₁, hmem₁, hid₁, hc₁⟩ := hs₁
  obtain ⟨s₂, hmem₂, hid₂, hc₂⟩ := hs₂
  obtain ⟨s₃, hmem₃, hid₃, hc₃⟩ := hs₃
  rw [← hid] at hcheckout hrestore hpaid hdirect hid₁ hid₂ hid₃ hlen hswept
  have hby₁ : ClosedBy s D D₁ := .checkout cafeStaff hcheckout
  have hby₂ : ClosedBy s D D₂ := .restored cafeStaff cafeStaff hsweep hrestore hpaid
  have hby₃ : ClosedBy s D D₃ := .direct cafeStaff _ rfl hsweep hswept hopen hdirect
  exact ⟨D, D₁, D₂, D₃, s, s₁, s₂, s₃, hmem, ho, hlen, ⟨hby₁, hmem₁, hc₁⟩, ⟨hby₂, hmem₂, hc₂⟩,
    ⟨hby₃, hmem₃, hc₃⟩, closings_agree hmem ho hby₁ hby₂ hmem₁ hmem₂ hid₁ hid₂ hc₁ hc₂,
    closings_agree hmem ho hby₁ hby₃ hmem₁ hmem₃ hid₁ hid₃ hc₁ hc₃⟩

end Schedules

end QOrder
