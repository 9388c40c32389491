import QOrder.Serial

/-! What later operations leave of a closing: the total of a closed session, and that a
session that is not open has no unserved item. -/

namespace QOrder

open KeyedTable Concurrency

variable {owner : Uuid → Uuid} {r : Request} {D D₀ : Deployment owner} {p : Clients 1}
  {hb post : List (Event 1)} {e : Event 1} {h : Holding} {i i' : OrderItem} {s : TableSession}

/-- The request is an undo of the item that goes through at `now`. -/
def Request.undoes (r : Request) (now : Timestamp) (i : OrderItem) : Bool :=
  match r with
  | .setItemStatus user itemId .pending =>
    i.matchesId itemId user.restaurantId [.served] && i.undoable now
  | _ => false

/-- No operation takes back an item of a closed session, unless it costs nothing. -/
def SparesTotals (r : Request) (p : Clients 1) : Prop :=
  ∀ e ∈ p.state.history, ∀ i ∈ e.before.items, r.undoes e.now i = true →
    ∀ s ∈ e.before.sessions, e.before.inSession s.id i = true → s.status = .closed → i.amount = 0

/-- Only items of open sessions are taken back. -/
def UndoesOpen (r : Request) (p : Clients 1) : Prop :=
  ∀ e ∈ p.state.history, ∀ i ∈ e.before.items, r.undoes e.now i = true →
    ∀ s ∈ e.before.sessions, e.before.inSession s.id i = true → s.status = .opened

instance (r : Request) (p : Clients 1) : Decidable (SparesTotals r p) :=
  inferInstanceAs (Decidable (∀ _ ∈ _, _))

instance (r : Request) (p : Clients 1) : Decidable (UndoesOpen r p) :=
  inferInstanceAs (Decidable (∀ _ ∈ _, _))

namespace Data

structure Settles (d : Data) (s : TableSession) : Prop where
  total : s.totalAmount = some (servedTotal (d.itemsOf s.id))
  unserved : ∀ i ∈ d.itemsOf s.id, i.isUnserved = true → i.amount = 0

def Settled (d : Data) : Prop := ∀ s ∈ d.sessions, s.status = .closed → d.Settles s

def Served (d : Data) : Prop :=
  ∀ s ∈ d.sessions, s.status ≠ .opened → ∀ i ∈ d.itemsOf s.id, i.isUnserved = false

end Data

section Items

theorem servedTotal_map {f : OrderItem → OrderItem} {items : List OrderItem}
    (hf : ∀ j ∈ items, (if (f j).status = .served then (f j).amount else 0) =
      if j.status = .served then j.amount else 0) : servedTotal (items.map f) = servedTotal items := by
  induction items with
  | nil => rfl
  | cons j items ih =>
    have htail := ih fun x hx => hf x (List.mem_cons_of_mem _ hx)
    rw [List.map_cons, servedTotal_cons, servedTotal_cons, htail, hf j List.mem_cons_self]

theorem OrderItem.Move.served_or_unserved {now : Timestamp} (hm : i.Move now i') :
    i.isUnserved = true ∨ i.status = .served ∧ i'.status = .pending ∧ i.undoable now = true := by
  cases hm with
  | cook h => exact .inl (isUnserved_iff.mpr (.inl h))
  | ready h => exact .inl (isUnserved_iff.mpr (h.imp_right .inl))
  | serve _ h => exact .inl h
  | undo h hu => exact .inr ⟨h, rfl, hu⟩
  | cancel _ _ h => exact .inl h

end Items

section Commit

/-- A commit that takes a served item back is that of an undo. -/
theorem Committed.undoes (hc : Committed owner (fun _ => r) hb e (.moved i i' s))
    (hi : i.isUnserved = false) : r.undoes e.now i = true := by
  rcases hc.valid.2.1.served_or_unserved with hu | ⟨hs, hp, hu⟩
  · rw [hi] at hu
    cases hu
  · have hj := hc.justified
    cases r with
    | setItemStatus user itemId toStatus =>
      obtain ⟨-, rfl, hr, rfl, -⟩ := hj
      rw [hp]
      simp [Request.undoes, OrderItem.matchesId, hr, hs, hu]
    | cancelItemStaff user itemId reason =>
      have hcn := hj.2.2.2
      rw [hp] at hcn
      cases hcn
    | cancelItemCustomer qrToken itemId reason =>
      have hcn := hj.2.2.1
      rw [hp] at hcn
      cases hcn
    | _ => cases hj

theorem Committed.ordered_open {o : Order} {items : List OrderItem} {at_ : Timestamp}
    (hc : Committed owner (fun _ => r) hb e (.ordered o items s at_)) (hr : D.Reaches (fun _ => r) p)
    (hh : p.state.history = hb ++ e :: post) : s.status = .opened := by
  have hj := hc.justified
  cases r with
  | createOrder qrToken body =>
    obtain ⟨w, hw, ho⟩ := hj.1.still_open hr hh
    rw [hc.valid.2.1] at hw
    cases hw
    exact ho
  | _ => cases hj

/-- An order that has sent no update of its session is added to an open one all the same. -/
theorem Committed.joined_open (hc : Committed owner (fun _ => r) hb e h) (hr : D.Reaches (fun _ => r) p)
    (hh : p.state.history = hb ++ e :: post) (hs : s ∈ e.before.sessions) (hk : h.Joins s.id) :
    s.status = .opened := by
  cases h with
  | ordering o items =>
    have hj := hc.justified
    cases r with
    | createOrder qrToken body =>
      obtain ⟨⟨tableId, hseen⟩, -⟩ := hj
      obtain ⟨w, hw, ho⟩ := hseen.still_open hr hh
      rw [show o.tableSessionId = s.id from hk, hc.ok.mem_sessions.mp hs] at hw
      cases hw
      exact ho
    | _ => cases hj
  | _ => exact hk.elim

/-- Alone, whatever takes a session out of use has met all of its items. -/
theorem Committed.items_left {items : List OrderItem} {kind : Leave}
    (hc : Committed owner (fun _ => r) hb e (.leaving s items kind .dismissed))
    (hr : D.Reaches (fun _ => r) p) (hh : p.state.history = hb ++ e :: post) : e.before.itemsOf s.id = items :=
  hc.justified.2.items_alone hr hh

theorem Committed.called_open {c : StaffCall} (hc : Committed owner (fun _ => r) hb e (.calling s c))
    (hr : D.Reaches (fun _ => r) p) (hh : p.state.history = hb ++ e :: post) : s.status = .opened := by
  have hj := hc.justified
  cases r with
  | callStaff qrToken =>
    obtain ⟨w, hw, ho⟩ := SeenOpen.still_open hr hh hj
    rw [hc.valid.session] at hw
    cases hw
    exact ho
  | _ => cases hj

/-- A property of sessions after a commit, by what the commit makes of each of them. -/
theorem Committed.sessions {P : TableSession → Prop} (hc : Committed owner (fun _ => r) hb e h)
    (hnew : ∀ s, h = .opening s → P s)
    (hstep : ∀ s ∈ e.before.sessions, ∀ s', h.SessionStep e.now e.before s s' → P s') :
    ∀ s ∈ e.after.sessions, P s := by
  intro s' hs'
  have ha := hc.after
  rw [ha] at hs'
  cases hl : lookup s'.id e.before.sessions with
  | none => exact hnew s' (Holding.session_new hc.ok hc.valid hc.complete hs' hl)
  | some s =>
    obtain ⟨s₁, hs₁, hst⟩ := hc.session hl
    have hok := h.commit_ok hc.ok hc.valid hc.complete
    rw [ha, hok.mem_sessions.mp hs'] at hs₁
    cases hs₁
    exact hstep s (mem_of_lookup hl) s' hst

/-- The same of what an open session has anyway. -/
theorem Committed.closed_sessions {P : Data → TableSession → Prop}
    (hc : Committed owner (fun _ => r) hb e h)
    (hr : D.Reaches (fun _ => r) p) (hh : p.state.history = hb ++ e :: post)
    (hkept : ∀ s, lookup s.id (h.writes e.now e.before).sessions = none → ¬ h.Joins s.id →
      P e.before s → P e.after s)
    (hopen : ∀ s, s.status = .opened → P e.after s)
    (hleft : ∀ s items kind, h = .leaving s items kind .dismissed →
      P e.after (kind.row e.now e.before s .dismissed))
    (hmoved : ∀ s i i', h = .moved i i' s → P e.before s → P e.after (s.touch e.now))
    (hP : ∀ s ∈ e.before.sessions, P e.before s) : ∀ s ∈ e.after.sessions, P e.after s := by
  refine hc.sessions ?_ fun s hs s' hst => ?_
  · rintro s rfl
    exact hopen s hc.valid.opened
  · cases hst with
    | kept hk =>
      by_cases hj : h.Joins s.id
      · exact hopen s (hc.joined_open hr hh hs hj)
      · exact hkept s hk hj (hP s hs)
    | reopened => exact hopen _ rfl
    | left items kind => exact hleft s items kind rfl
    | moved i i' => exact hmoved s i i' rfl (hP s hs)
    | ordered o items at_ => exact hopen _ (hc.ordered_open hr hh)
    | called c => exact hopen _ (hc.called_open hr hh)

theorem Committed.settled (hc : Committed owner (fun _ => r) hb e h) (hr : D.Reaches (fun _ => r) p)
    (hh : p.state.history = hb ++ e :: post) (hC : SparesTotals r p) (hd : e.before.Settled) :
    e.after.Settled := by
  refine hc.closed_sessions hr hh (P := fun d s => s.status = .closed → d.Settles s) ?_ ?_ ?_ ?_ hd
  · intro s hk hj hs hcl
    have hitems := Holding.itemsOf_commit hc.ok hc.valid hc.complete hk hj
    rw [← hc.after] at hitems
    constructor
    · rw [hitems]
      exact (hs hcl).total
    · rw [hitems]
      exact (hs hcl).unserved
  · intro s ho hcl
    rw [ho] at hcl
    cases hcl
  · rintro s items kind rfl hcl
    have hl : Left owner e s items kind := ⟨hc.commit, hc.ok, hc.valid, hc.after⟩
    have hk : kind = .close := by
      rw [Leave.row_status] at hcl
      cases kind with
      | close => rfl
      | abandon => cases hcl
    constructor
    · rw [Leave.row_id, hc.after]
      exact leaving_total hc.ok hc.valid hk
    · intro i hi hu
      rw [Leave.row_id, hc.after] at hi
      rw [leaving_no_unserved hc.ok hc.valid (hc.items_left hr hh) hi] at hu
      cases hu
  · rintro s i i' rfl hs hcl
    obtain ⟨hl, hm, hls, hin⟩ := hc.valid
    have hsettles := hs hcl
    have hmem := Data.mem_itemsOf.mpr ⟨mem_of_lookup hl, hin⟩
    have hzero : i.amount = 0 := by
      cases hu : i.isUnserved with
      | true => exact hsettles.unserved i hmem hu
      | false =>
        have he : e ∈ p.state.history := by rw [hh]; simp
        exact hC e he i (mem_of_lookup hl) (hc.undoes hu) s (mem_of_lookup hls) hin hcl
    have hzero' : i'.amount = 0 := by rw [hm.amount_eq, hzero]
    have hitems := Holding.itemsOf_moved hc.ok hc.valid
    rw [← hc.after] at hitems
    constructor
    · show s.totalAmount = some (servedTotal (e.after.itemsOf s.id))
      rw [hitems, servedTotal_map, hsettles.total]
      intro j hj
      by_cases hid : j.id = i.id
      · obtain rfl := eq_of_key_eq hc.ok.itemIds (Data.mem_itemsOf.mp hj).1 (mem_of_lookup hl) hid
        simp [hzero, hzero']
      · simp [hid]
    · intro j hj hu
      change j ∈ e.after.itemsOf s.id at hj
      rw [hitems] at hj
      obtain ⟨j₀, hj₀, rfl⟩ := List.mem_map.mp hj
      by_cases hid : j₀.id = i.id
      · simp [hid, hzero']
      · simp only [hid, if_false] at hu ⊢
        exact hsettles.unserved j₀ hj₀ hu

theorem Committed.served (hc : Committed owner (fun _ => r) hb e h) (hr : D.Reaches (fun _ => r) p)
    (hh : p.state.history = hb ++ e :: post) (hC : UndoesOpen r p) (hd : e.before.Served) :
    e.after.Served := by
  refine hc.closed_sessions hr hh
    (P := fun d s => s.status ≠ .opened → ∀ i ∈ d.itemsOf s.id, i.isUnserved = false) ?_ ?_ ?_ ?_ hd
  · intro s hk hj hs hn
    have hitems := Holding.itemsOf_commit hc.ok hc.valid hc.complete hk hj
    rw [← hc.after] at hitems
    rw [hitems]
    exact hs hn
  · exact fun s ho hn => absurd ho hn
  · rintro s items kind rfl - i hi
    rw [Leave.row_id, hc.after] at hi
    exact leaving_no_unserved hc.ok hc.valid (hc.items_left hr hh) hi
  · rintro s i i' rfl hs hn
    obtain ⟨hl, hm, hls, hin⟩ := hc.valid
    have hu := hs hn i (Data.mem_itemsOf.mpr ⟨mem_of_lookup hl, hin⟩)
    have he : e ∈ p.state.history := by rw [hh]; simp
    exact absurd (hC e he i (mem_of_lookup hl) (hc.undoes hu) s (mem_of_lookup hls) hin) hn

end Commit

section Runs

/-- Data that every operation keeps hold whatever the order of the operations. -/
theorem Serially.kept {C : Request → Clients 1 → Prop} {P : Data → Prop} (hr : Serially C D₀ D)
    (h₀ : P D₀.data) (hs : ∀ (D : Deployment owner) (r : Request) (p : Clients 1)
      (hb post : List (Event 1)) (e : Event 1) (h : Holding), D.Reaches (fun _ => r) p → C r p →
      p.state.history = hb ++ e :: post → Committed owner (fun _ => r) hb e h →
      P e.before → P e.after) : P D.data := by
  induction hr with
  | refl => exact h₀
  | tail _ hop ih =>
    cases hop with
    | op r hr hend hC =>
      exact (hr.preserved ih fun hb e post h hh hc hp =>
        hs _ r _ hb post e h hr hC hh hc hp).2

/-- The total of every closed session is that of its served items. -/
theorem closed_total (h₀ : D₀.data = {}) (hr : Serially SparesTotals D₀ D) :
    ∀ s ∈ D.data.sessions, s.status = .closed →
      s.totalAmount = some (servedTotal (D.data.itemsOf s.id)) := by
  have hd : D.data.Settled := hr.kept (by simp [h₀, Data.Settled])
    fun _ _ _ _ _ _ _ hr hC hh hc hp => hc.settled hr hh hC hp
  exact fun s hs hcl => (hd s hs hcl).total

/-- No session that is not open has an unserved item, and the board lists none. -/
theorem unserved_open (h₀ : D₀.data = {}) (hr : Serially UndoesOpen D₀ D) :
    (∀ s ∈ D.data.sessions, s.status ≠ .opened → ∀ i ∈ D.data.itemsOf s.id, i.isUnserved = false) ∧
      ∀ restaurantId, ∀ i ∈ Kitchen.getKitchenBoard D.data restaurantId, ∀ s ∈ D.data.sessions,
        D.data.inSession s.id i = true → s.status = .opened := by
  have hd : D.data.Served := hr.kept (by simp [h₀, Data.Served])
    fun _ _ _ _ _ _ _ hr hC hh hc hp => hc.served hr hh hC hp
  refine ⟨hd, fun restaurantId i hi s hs hin => ?_⟩
  obtain ⟨hm, ha⟩ := List.mem_filter.mp (List.mem_mergeSort.mp hi)
  by_contra hn
  have hu := hd s hs hn i (Data.mem_itemsOf.mpr ⟨hm, hin⟩)
  have hu' : i.isUnserved = true := (Bool.and_eq_true_iff.mp ha).2
  rw [hu] at hu'
  cases hu'

section Schedules

/-- A guest orders, the dish is served a minute later, and the table is checked out. -/
def cafeServed : List (Timestamp × Request) :=
  [(0, cafeOrder), (seconds 60, .setItemStatus cafeStaff 12 .served),
    (seconds 90, .checkoutSession cafeStaff 10)]

/-- The waiter takes the dish back, half a minute after the checkout. -/
def cafeTakenBack : List (Timestamp × Request) :=
  cafeServed ++ [(seconds 120, .setItemStatus cafeStaff 12 .pending)]

theorem closed_total_cafe : ∃ D, Serially SparesTotals cafe D ∧ ∃ s ∈ D.data.sessions,
    s.status = .closed ∧ s.totalAmount = some (servedTotal (D.data.itemsOf s.id)) := by
  obtain ⟨D, σ, hr, hd, ht⟩ := exists_serially cafe (fun r p => SparesTotals r p)
    (fun _ _ h => of_decide_eq_true h) cafeServed
    (fun σ => σ.data.sessions.any fun s => s.status = .closed) (by decide)
  rw [← hd.data] at ht
  obtain ⟨s, hs, hcl⟩ := List.any_eq_true.mp ht
  have hcl := of_decide_eq_true hcl
  exact ⟨D, hr, s, hs, hcl, closed_total rfl hr s hs hcl⟩

theorem closed_total_fails : ¬ ∀ D : Deployment fun _ => 1, Serially (fun _ _ => True) cafe D →
    ∀ s ∈ D.data.sessions, s.status = .closed →
      s.totalAmount = some (servedTotal (D.data.itemsOf s.id)) := by
  intro h
  obtain ⟨D, σ, hr, hd, ht⟩ := exists_serially cafe (fun _ _ => true) (fun _ _ _ => trivial) cafeTakenBack
    (fun σ => σ.data.sessions.any fun s => s.status = .closed ∧
      s.totalAmount ≠ some (servedTotal (σ.data.itemsOf s.id))) (by decide)
  rw [← hd.data] at ht
  obtain ⟨s, hs, hcl⟩ := List.any_eq_true.mp ht
  obtain ⟨hcl, hn⟩ := of_decide_eq_true hcl
  exact hn (h D hr s hs hcl)

theorem unserved_open_cafe : ∃ D, Serially UndoesOpen cafe D ∧ ∃ s ∈ D.data.sessions,
    s.status = .closed ∧ ∀ i ∈ D.data.itemsOf s.id, i.isUnserved = false := by
  obtain ⟨D, σ, hr, hd, ht⟩ := exists_serially cafe (fun r p => UndoesOpen r p)
    (fun _ _ h => of_decide_eq_true h) cafeServed
    (fun σ => σ.data.sessions.any fun s => s.status = .closed) (by decide)
  rw [← hd.data] at ht
  obtain ⟨s, hs, hcl⟩ := List.any_eq_true.mp ht
  have hcl := of_decide_eq_true hcl
  exact ⟨D, hr, s, hs, hcl, (unserved_open rfl hr).1 s hs (by simp [hcl])⟩

theorem unserved_open_fails : ¬ ∀ D : Deployment fun _ => 1, Serially (fun _ _ => True) cafe D →
    (∀ s ∈ D.data.sessions, s.status ≠ .opened → ∀ i ∈ D.data.itemsOf s.id, i.isUnserved = false) ∧
      ∀ restaurantId, ∀ i ∈ Kitchen.getKitchenBoard D.data restaurantId, ∀ s ∈ D.data.sessions,
        D.data.inSession s.id i = true → s.status = .opened := by
  intro h
  obtain ⟨D, σ, hr, hd, ht⟩ := exists_serially cafe (fun _ _ => true) (fun _ _ _ => trivial) cafeTakenBack
    (fun σ => σ.data.sessions.any fun s => s.status ≠ .opened ∧
      ∃ i ∈ σ.data.itemsOf s.id, i.isUnserved = true) (by decide)
  rw [← hd.data] at ht
  obtain ⟨s, hs, hcl⟩ := List.any_eq_true.mp ht
  obtain ⟨hn, i, hi, hu⟩ := of_decide_eq_true hcl
  rw [(h D hr).1 s hs hn i hi] at hu
  cases hu

end Schedules

end Runs

end QOrder
