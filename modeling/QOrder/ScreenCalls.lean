import QOrder.Effects

/-! The staff calls on the kitchen's screen. Closing or abandoning a session answers its calls, and
says so to nobody. -/

namespace QOrder

open KeyedTable Concurrency

/-- What a `staff_call.new` tells the screen. -/
structure ShownCall where
  id : Uuid
  tableId : Uuid
  tableSessionId : Uuid
  status : StaffCallStatus
  createdAt : Timestamp
  deriving DecidableEq, Repr

def StaffCall.asNew (c : StaffCall) : ShownCall := ⟨c.id, c.tableId, c.tableSessionId, .pending, c.createdAt⟩

namespace KitchenBoard

def handleCallEvent (staffCalls : List ShownCall) : RealtimeEvent → List ShownCall
  | .staffCallNew id tableId tableSessionId status createdAt =>
    staffCalls ++ [⟨id, tableId, tableSessionId, status, createdAt⟩]
  | .staffCallAck id _ _ _ _ _ => staffCalls.filter fun c => c.id ≠ id
  | _ => staffCalls

def receiveCalls (events : List RealtimeEvent) (staffCalls : List ShownCall) : List ShownCall :=
  events.foldl handleCallEvent staffCalls

/-- The button of a call, when the request has been answered. -/
def handleAckCall (staffCalls : List ShownCall) (callId : Uuid) : Except Exn Response → List ShownCall
  | .ok _ => staffCalls.filter fun c => c.id ≠ callId
  | .error _ => staffCalls

end KitchenBoard

/-- What a dismissal leaves of a call. -/
def StaffCall.undismissed (c : StaffCall) : StaffCall := { c with status := .pending, acknowledgedAt := none }

/-- Some of the calls have been dismissed. -/
def Data.KeepsCalls (d d' : Data) : Prop :=
  ∃ f : StaffCall → StaffCall, d'.calls = d.calls.map f ∧
    ∀ c, (f c).undismissed = c.undismissed ∧ ((f c).status = .pending → c.status = .pending)

/-- What an operation does to the calls, and tells the kitchens of the restaurants. -/
inductive CallEffect (d d' : Data) (sent : Uuid → List RealtimeEvent) : Prop
  | kept (hk : d.KeepsCalls d') (hs : ∀ restaurantId calls, KitchenBoard.receiveCalls (sent restaurantId) calls = calls)
  | called (c : StaffCall) (hn : ∀ x ∈ d.calls, x.id ≠ c.id) (hp : c.status = .pending) (hb : c.acknowledgedBy = none)
      (hc : d'.calls = d.calls ++ [c])
      (hs : ∀ restaurantId, sent restaurantId = if restaurantId = c.restaurantId then
        [.staffCallNew c.id c.tableId c.tableSessionId .pending c.createdAt] else [])
  | acked (c : StaffCall) (at_ : Timestamp) (by_ : Uuid) (hm : c ∈ d.calls)
      (hc : d'.calls = d.calls.map fun x => if x.id = c.id then c.acknowledge at_ by_ else x)
      (hs : ∀ restaurantId, sent restaurantId = if restaurantId = c.restaurantId then
        [.staffCallAck c.id c.tableId c.tableSessionId .acknowledged (some at_) (some by_)] else [])

section Quiet

variable {n : Nat} {owner : Uuid → Uuid} {d d' d'' : Data} {r : Request}

theorem Data.KeepsCalls.refl (d : Data) : d.KeepsCalls d := ⟨id, (List.map_id _).symm, fun _ => ⟨rfl, id⟩⟩

theorem Data.KeepsCalls.trans (h : d.KeepsCalls d') (h' : d'.KeepsCalls d'') : d.KeepsCalls d'' := by
  obtain ⟨f, hf, hkeep⟩ := h
  obtain ⟨g, hg, hkeep'⟩ := h'
  refine ⟨g ∘ f, ?_, fun c => ⟨?_, fun hp => ?_⟩⟩
  · rw [hg, hf, List.map_map]
  · exact (hkeep' (f c)).1.trans (hkeep c).1
  · exact (hkeep c).2 ((hkeep' (f c)).2 hp)

/-- The request neither makes a call nor acknowledges one. -/
def Request.Silent : Request → Prop
  | .callStaff _ | .ackStaffCall _ _ => False
  | _ => True

theorem Committed.keepsCalls {req : Fin n → Request} {hb : List (Event n)} {e : Event n} {h : Holding}
    (hc : Committed owner req hb e h) (hs : (req e.client).Silent) : e.before.KeepsCalls e.after := by
  have hj := hc.justified
  have hsame (hw : (h.writes e.now e.before).calls = []) : e.before.KeepsCalls e.after := by
    refine ⟨id, ?_, fun _ => ⟨rfl, id⟩⟩
    rw [hc.after, Data.overlay_calls, hw, overlay_nil, List.map_id]
  cases h with
  | calling s c =>
    cases hr : req e.client with
    | callStaff => exact absurd hs (by rw [hr]; exact not_false)
    | _ =>
      rw [hr] at hj
      exact hj.elim
  | acking c c' =>
    cases hr : req e.client with
    | ackStaffCall => exact absurd hs (by rw [hr]; exact not_false)
    | _ =>
      rw [hr] at hj
      exact hj.elim
  | leaving s items kind stage =>
    by_cases hstage : stage = .dismissed
    · have hcalls : e.after.calls = e.before.calls.map fun c =>
          if c.tableSessionId == s.id && c.restaurantId == s.restaurantId && c.status == .pending then c.dismiss e.now
          else c := by
        rw [hc.after, Data.overlay_calls]
        have hw : ((Holding.leaving s items kind stage).writes e.now e.before).calls =
            changed (fun c => c.tableSessionId == s.id && c.restaurantId == s.restaurantId && c.status == .pending)
              (fun c => c.dismiss e.now) e.before.calls := by
          simp only [Holding.writes, if_pos hstage]
          rfl
        have hkey : ∀ c : StaffCall, key (c.dismiss e.now) = key c := fun _ => rfl
        rw [hw, overlay_changed hkey hc.ok.callIds]
      refine ⟨_, hcalls, fun c => ?_⟩
      split
      · exact ⟨rfl, fun hp => by cases hp⟩
      · exact ⟨rfl, id⟩
    · apply hsame
      simp [Holding.writes, hstage]
  | _ => exact hsame rfl

theorem KitchenBoard.receiveCalls_same {events : List RealtimeEvent}
    (h : ∀ event ∈ events, ∀ calls, KitchenBoard.handleCallEvent calls event = calls) (calls : List ShownCall) :
    KitchenBoard.receiveCalls events calls = calls := by
  induction events generalizing calls with
  | nil => rfl
  | cons event events ih =>
    have hrest := ih fun x hx => h x (List.mem_cons_of_mem _ hx)
    rw [KitchenBoard.receiveCalls, List.foldl_cons, h event List.mem_cons_self]
    exact hrest calls

variable {D : Deployment owner} {p : Clients 1}

theorem Deployment.Reaches.keepsCalls (hr : D.Reaches (fun _ => r) p) (hs : r.Silent) :
    D.data.KeepsCalls p.state.data := by
  refine hr.inv.follows.rel Data.KeepsCalls.refl (fun hab hbc => hab.trans hbc) fun e he => ?_
  obtain ⟨hb, -, hen⟩ := hr.entry he
  rcases hen.unchanged_or_committed with ha | ⟨h, hc⟩
  · rw [ha]
    exact .refl _
  · exact hc.keepsCalls hs

/-- Its messages are about other things. -/
theorem Deployment.Reaches.tells_no_call (hr : D.Reaches (fun _ => r) p) (hs : r.Silent) {channel : Channel}
    {event : RealtimeEvent} (hm : event ∈ messagesOn channel p.state.history) (calls : List ShownCall) :
    KitchenBoard.handleCallEvent calls event = calls := by
  obtain ⟨l₁, e, l₂, h, hh, hc, ha⟩ := hr.sent hm
  have hj := hc.justified
  cases h with
  | calling s c =>
    cases r with
    | callStaff => exact hs.elim
    | _ => exact hj.elim
  | acking c c' =>
    cases r with
    | ackStaffCall => exact hs.elim
    | _ => exact hj.elim
  | reopening s =>
    rw [ha.2]
    rfl
  | moved i i' s =>
    rcases ha.2 with rfl | ⟨cancelledBy, orderId, rfl, -⟩
    · rfl
    · rfl
  | ordering | ordered =>
    obtain ⟨-, published, rfl, -⟩ := ha
    rfl
  | leaving s items kind stage =>
    cases kind with
    | close =>
      obtain ⟨-, closedAt, rfl⟩ := ha
      rfl
    | abandon =>
      rw [ha.2]
      rfl
  | _ => exact ha.elim

end Quiet

end QOrder
