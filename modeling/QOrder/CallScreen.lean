import QOrder.CallEffects

/-! A kitchen's screen over a run of operations, with its socket open all along: which calls it lists. -/

namespace QOrder

open KeyedTable Concurrency

variable {owner : Uuid → Uuid}

/-- The database, the calls on a screen, and those whose button has been pressed on it. -/
structure CallScreen (owner : Uuid → Uuid) where
  deployment : Deployment owner
  staffCalls : List ShownCall := []
  pressed : List Uuid := []

namespace CallScreen

/-- An operation, whose messages the screen receives. -/
def serve (restaurantId : Uuid) (σ : CallScreen owner) (r : Request) (w : Moment)
    (hw : σ.deployment.nextUuid ≤ w.nextUuid) : CallScreen owner :=
  { σ with
    deployment := σ.deployment.serve r w hw
    staffCalls := KitchenBoard.receiveCalls
      (r.messages w σ.deployment.catalog σ.deployment.data (.kitchen restaurantId)) σ.staffCalls }

/-- The request that the button has sent is answered. -/
def answered (σ : CallScreen owner) (callId : Uuid) (answer : Except Exn Response) : CallScreen owner :=
  { σ with
    staffCalls := KitchenBoard.handleAckCall σ.staffCalls callId answer
    pressed := if answer.isOk then callId :: σ.pressed else σ.pressed }

inductive Step (restaurantId : Uuid) (σ : CallScreen owner) : CallScreen owner → Prop
  | serve (r : Request) (w : Moment) (hw : σ.deployment.nextUuid ≤ w.nextUuid) :
      Step restaurantId σ (σ.serve restaurantId r w hw)
  | press (user : TokenPayload) (callId : Uuid) (w : Moment) (hw : σ.deployment.nextUuid ≤ w.nextUuid) :
      Step restaurantId σ ((σ.serve restaurantId (.ackStaffCall user callId) w hw).answered callId
        ((Request.ackStaffCall user callId).response w σ.deployment.catalog σ.deployment.data))
  | edit (catalog : Catalog) (h : catalog.Owned owner) :
      Step restaurantId σ { σ with deployment := { σ.deployment with catalog, owned := h } }

abbrev Reaches (restaurantId : Uuid) : CallScreen owner → CallScreen owner → Prop :=
  Relation.ReflTransGen (Step restaurantId)

end CallScreen

/-- A call of the restaurant, made since those known, that neither staff elsewhere have acknowledged nor the
button of this screen. -/
def StaffCall.stays (restaurantId : Uuid) (known pressed : List Uuid) (c : StaffCall) : Bool :=
  c.restaurantId == restaurantId && decide (c.id ∉ known) && c.acknowledgedBy.isNone && decide (c.id ∉ pressed)

/-- What a screen lists. -/
structure ListsCalls (restaurantId : Uuid) (known pressed : List Uuid) (rows : List StaffCall)
    (staffCalls : List ShownCall) : Prop where
  shown : staffCalls = (rows.filter (StaffCall.stays restaurantId known pressed)).map StaffCall.asNew
  pending : ∀ c ∈ rows, c.id ∉ known → c.status = .pending → c.acknowledgedBy = none ∧ c.id ∉ pressed
  known : ∀ k ∈ known, ∃ c ∈ rows, c.id = k
  pressed : ∀ k ∈ pressed, ∃ c ∈ rows, c.id = k

section Screens

variable {restaurantId : Uuid} {known pressed : List Uuid} {d d' : Data} {staffCalls : List ShownCall}
  {sent : Uuid → List RealtimeEvent}

theorem ListsCalls.kept (h : ListsCalls restaurantId known pressed d.calls staffCalls) (hk : d.KeepsCalls d') :
    ListsCalls restaurantId known pressed d'.calls staffCalls := by
  obtain ⟨f, hf, hkeep⟩ := hk
  have hsame {α : Type} (column : StaffCall → α) (hc : ∀ c : StaffCall, column c.undismissed = column c)
      (c : StaffCall) : column (f c) = column c := by
    rw [← hc (f c), (hkeep c).1, hc]
  have hid := hsame StaffCall.id fun _ => rfl
  have hby := hsame StaffCall.acknowledgedBy fun _ => rfl
  have hr := hsame StaffCall.restaurantId fun _ => rfl
  have hnew := hsame StaffCall.asNew fun _ => rfl
  have still {k : Uuid} (hm : ∃ c ∈ d.calls, c.id = k) : ∃ c ∈ d'.calls, c.id = k := by
    obtain ⟨c, hc, rfl⟩ := hm
    exact ⟨f c, hf ▸ List.mem_map_of_mem hc, hid c⟩
  refine ⟨?_, fun c' hc' hn hp => ?_, fun k hm => still (h.known k hm), fun k hm => still (h.pressed k hm)⟩
  · have hstays : StaffCall.stays restaurantId known pressed ∘ f = StaffCall.stays restaurantId known pressed := by
      funext c
      simp only [Function.comp, StaffCall.stays, hid, hby, hr]
    have hshown : StaffCall.asNew ∘ f = StaffCall.asNew := funext hnew
    rw [h.shown, hf, List.filter_map, List.map_map, hstays, hshown]
  · rw [hf] at hc'
    obtain ⟨c, hc, rfl⟩ := List.mem_map.mp hc'
    rw [hid] at hn ⊢
    rw [hby]
    exact h.pending c hc hn ((hkeep c).2 hp)

theorem ListsCalls.called (h : ListsCalls restaurantId known pressed d.calls staffCalls) {c : StaffCall}
    (hn : ∀ x ∈ d.calls, x.id ≠ c.id) (hb : c.acknowledgedBy = none) (hc : d'.calls = d.calls ++ [c]) :
    ListsCalls restaurantId known pressed d'.calls
      (if restaurantId = c.restaurantId then staffCalls ++ [c.asNew] else staffCalls) := by
  have hknown : c.id ∉ known := fun hm => by
    obtain ⟨x, hx, he⟩ := h.known _ hm
    exact hn x hx he
  have hpressed : c.id ∉ pressed := fun hm => by
    obtain ⟨x, hx, he⟩ := h.pressed _ hm
    exact hn x hx he
  have still {k : Uuid} (hm : ∃ c ∈ d.calls, c.id = k) : ∃ c ∈ d'.calls, c.id = k := by
    obtain ⟨x, hx, rfl⟩ := hm
    exact ⟨x, hc ▸ List.mem_append_left _ hx, rfl⟩
  refine ⟨?_, fun x hx hk hp => ?_, fun k hm => still (h.known k hm), fun k hm => still (h.pressed k hm)⟩
  · rw [hc, List.filter_append, List.map_append, ← h.shown]
    by_cases hr : restaurantId = c.restaurantId
    · have hstays : StaffCall.stays restaurantId known pressed c = true := by
        simp [StaffCall.stays, hr, hknown, hb, hpressed]
      rw [if_pos hr, List.filter_cons_of_pos hstays]
      rfl
    · have hstays : ¬ StaffCall.stays restaurantId known pressed c = true := by
        simp [StaffCall.stays, Ne.symm hr]
      rw [if_neg hr, List.filter_cons_of_neg hstays]
      exact (List.append_nil _).symm
  · rw [hc] at hx
    rcases List.mem_append.mp hx with hx | hx
    · exact h.pending x hx hk hp
    · rw [List.mem_singleton.mp hx]
      exact ⟨hb, hpressed⟩

/-- Replacing a row by one that a list leaves out. -/
theorem filter_replaced {rows : List StaffCall} {q : StaffCall → Bool} {c c' : StaffCall} (hq : q c' = false) :
    (rows.map fun x => if x.id = c.id then c' else x).filter q = (rows.filter q).filter fun x => x.id ≠ c.id := by
  induction rows with
  | nil => rfl
  | cons x rows ih =>
    rw [List.map_cons]
    by_cases hid : x.id = c.id
    · rw [if_pos hid, List.filter_cons_of_neg (by simp [hq]), ih]
      by_cases hx : q x = true
      · rw [List.filter_cons_of_pos hx, List.filter_cons_of_neg (by simp [hid])]
      · rw [List.filter_cons_of_neg hx]
    · rw [if_neg hid]
      by_cases hx : q x = true
      · rw [List.filter_cons_of_pos hx, List.filter_cons_of_pos hx, List.filter_cons_of_pos (by simp [hid]), ih]
      · rw [List.filter_cons_of_neg hx, List.filter_cons_of_neg hx, ih]

theorem ListsCalls.acked (h : ListsCalls restaurantId known pressed d.calls staffCalls) (hk : UniqueKeys d.calls)
    {c : StaffCall} {at_ : Timestamp} {by_ : Uuid} (hm : c ∈ d.calls)
    (hc : d'.calls = d.calls.map fun x => if x.id = c.id then c.acknowledge at_ by_ else x) :
    ListsCalls restaurantId known pressed d'.calls
      (if restaurantId = c.restaurantId then staffCalls.filter fun x => x.id ≠ c.id else staffCalls) := by
  have still {k : Uuid} (hx : ∃ c ∈ d.calls, c.id = k) : ∃ c ∈ d'.calls, c.id = k := by
    obtain ⟨x, hx, rfl⟩ := hx
    rw [hc]
    by_cases he : x.id = c.id
    · exact ⟨c.acknowledge at_ by_, List.mem_map.mpr ⟨x, hx, if_pos he⟩, he.symm⟩
    · exact ⟨x, List.mem_map.mpr ⟨x, hx, if_neg he⟩, rfl⟩
  refine ⟨?_, fun x hx hn hp => ?_, fun k hm => still (h.known k hm), fun k hm => still (h.pressed k hm)⟩
  · have hgone : StaffCall.stays restaurantId known pressed (c.acknowledge at_ by_) = false := by
      simp [StaffCall.stays]
    rw [hc, filter_replaced hgone]
    by_cases hr : restaurantId = c.restaurantId
    · rw [if_pos hr, h.shown, List.filter_map]
      rfl
    · rw [if_neg hr, h.shown]
      congr 1
      refine (List.filter_eq_self.mpr fun x hx => ?_).symm
      obtain ⟨hx, hstays⟩ := List.mem_filter.mp hx
      rw [decide_eq_true_eq]
      intro he
      obtain rfl := eq_of_key_eq hk hx hm he
      simp only [StaffCall.stays, Bool.and_eq_true, beq_iff_eq] at hstays
      exact hr hstays.1.1.1.symm
  · rw [hc] at hx
    obtain ⟨y, hy, rfl⟩ := List.mem_map.mp hx
    by_cases he : y.id = c.id
    · rw [if_pos he] at hp
      cases hp
    · rw [if_neg he] at hp hn ⊢
      exact h.pending y hy hn hp

theorem ListsCalls.effect (h : ListsCalls restaurantId known pressed d.calls staffCalls) (hk : UniqueKeys d.calls)
    (he : CallEffect d d' sent) :
    ListsCalls restaurantId known pressed d'.calls (KitchenBoard.receiveCalls (sent restaurantId) staffCalls) := by
  cases he with
  | kept hkeep hs =>
    rw [hs]
    exact h.kept hkeep
  | called c hn hp hb hc hs =>
    have hcalled := h.called hn hb hc
    rw [hs]
    by_cases hr : restaurantId = c.restaurantId
    · rw [if_pos hr] at hcalled ⊢
      exact hcalled
    · rw [if_neg hr] at hcalled ⊢
      exact hcalled
  | acked c at_ by_ hm hc hs =>
    have hacked := h.acked hk hm hc
    rw [hs]
    by_cases hr : restaurantId = c.restaurantId
    · rw [if_pos hr] at hacked ⊢
      exact hacked
    · rw [if_neg hr] at hacked ⊢
      exact hacked

/-- The button takes its call off the screen, acknowledged as it is. -/
theorem ListsCalls.press (h : ListsCalls restaurantId known pressed d.calls staffCalls) (hk : UniqueKeys d.calls)
    {c : StaffCall} (hc : c ∈ d.calls) (hst : c.status = .acknowledged) :
    ListsCalls restaurantId known (c.id :: pressed) d.calls (staffCalls.filter fun x => x.id ≠ c.id) := by
  refine ⟨?_, fun x hx hn hp => ?_, h.known, fun k hm => ?_⟩
  · have hstays : StaffCall.stays restaurantId known (c.id :: pressed) =
        fun x => decide (x.id ≠ c.id) && StaffCall.stays restaurantId known pressed x := by
      funext x
      by_cases he : x.id = c.id
      · simp [StaffCall.stays, he]
      · simp [StaffCall.stays, he]
    rw [h.shown, List.filter_map, hstays, ← List.filter_filter]
    rfl
  · obtain ⟨hby, hpressed⟩ := h.pending x hx hn hp
    refine ⟨hby, fun hm => ?_⟩
    rcases List.mem_cons.mp hm with he | hm
    · obtain rfl := eq_of_key_eq hk hx hc he
      cases hst.symm.trans hp
    · exact hpressed hm
  · rcases List.mem_cons.mp hm with rfl | hm
    · exact ⟨c, hc, rfl⟩
    · exact h.pressed k hm

end Screens

section Runs

variable {D : Deployment owner} {restaurantId : Uuid} {known : List Uuid} {σ σ' : CallScreen owner}

theorem CallScreen.Step.lists
    (h : ListsCalls restaurantId known σ.pressed σ.deployment.data.calls σ.staffCalls) (hs : σ.Step restaurantId σ') :
    ListsCalls restaurantId known σ'.pressed σ'.deployment.data.calls σ'.staffCalls := by
  cases hs with
  | serve r w hw => exact h.effect σ.deployment.ok.callIds (σ.deployment.callEffect r w hw)
  | press user callId w hw =>
    have hserved := h.effect σ.deployment.ok.callIds (σ.deployment.callEffect (.ackStaffCall user callId) w hw)
    unfold CallScreen.answered
    cases hanswer : (Request.ackStaffCall user callId).response w σ.deployment.catalog σ.deployment.data with
    | error e => exact hserved
    | ok answer =>
      obtain ⟨c, hc, rfl, hst⟩ := σ.deployment.acknowledged hanswer
      exact hserved.press (σ.deployment.serve (.ackStaffCall user c.id) w hw).ok.callIds hc hst
  | edit catalog hc => exact h

/-- While its socket is open a screen lists, in the order in which they were made, the calls since it was
loaded that no member of the staff has acknowledged: those that wait, and those that their session's end has
answered, which stay until the button is pressed. -/
theorem calls_listed (hr : CallScreen.Reaches restaurantId { deployment := D } σ) :
    σ.staffCalls = ((σ.deployment.data.calls.filter
      (StaffCall.stays restaurantId (D.data.calls.map StaffCall.id) σ.pressed)).map StaffCall.asNew) ∧
    ∀ c ∈ σ.deployment.data.calls, c.restaurantId = restaurantId → c.id ∉ D.data.calls.map StaffCall.id →
      c.status = .pending → c.asNew ∈ σ.staffCalls := by
  have hlists : ListsCalls restaurantId (D.data.calls.map StaffCall.id) σ.pressed σ.deployment.data.calls
      σ.staffCalls := by
    induction hr with
    | refl =>
      refine ⟨?_, fun c hc hn => absurd (List.mem_map_of_mem hc) hn, fun k hk => List.mem_map.mp hk, ?_⟩
      · have hnone : D.data.calls.filter (StaffCall.stays restaurantId (D.data.calls.map StaffCall.id) []) = [] := by
          refine List.filter_eq_nil_iff.mpr fun c hc hs => ?_
          simp only [StaffCall.stays, Bool.and_eq_true, decide_eq_true_eq] at hs
          exact hs.1.1.2 (List.mem_map_of_mem hc)
        rw [hnone]
        rfl
      · exact fun k hk => absurd hk List.not_mem_nil
    | tail _ hs ih => exact hs.lists ih
  refine ⟨hlists.shown, fun c hc hrid hn hp => ?_⟩
  obtain ⟨hby, hpressed⟩ := hlists.pending c hc hn hp
  rw [hlists.shown]
  refine List.mem_map_of_mem (List.mem_filter.mpr ⟨hc, ?_⟩)
  simp only [StaffCall.stays, Bool.and_eq_true, beq_iff_eq, decide_eq_true_eq]
  exact ⟨⟨⟨hrid, hn⟩, Option.isNone_iff_eq_none.mpr hby⟩, hpressed⟩

end Runs

section Cafe

/-- A guest of the café calls, and the table is closed before anybody comes. -/
def cafeRings : CallScreen fun _ => 1 :=
  ((CallScreen.mk cafe [] []).serve 1 (.callStaff "ban-1") ⟨0, 0, 10⟩ (by decide)).serve 1
    (.checkoutSession ⟨4, 1⟩ 10) ⟨seconds 60, seconds 60, 20⟩ (by decide +kernel)

/-- The call has been answered, and is still on the screen. -/
theorem calls_listed_cafe : (∀ c ∈ cafeRings.deployment.data.calls, c.status = .acknowledged) ∧
    cafeRings.staffCalls.length = 1 ∧ cafeRings.staffCalls = ((cafeRings.deployment.data.calls.filter
      (StaffCall.stays 1 (cafe.data.calls.map StaffCall.id) cafeRings.pressed)).map StaffCall.asNew) := by
  have hr : CallScreen.Reaches 1 { deployment := cafe } cafeRings :=
    .tail (.single (.serve (.callStaff "ban-1") _ _)) (.serve (.checkoutSession ⟨4, 1⟩ 10) _ _)
  exact ⟨by decide +kernel, by decide +kernel, (calls_listed hr).1⟩

end Cafe

end QOrder
