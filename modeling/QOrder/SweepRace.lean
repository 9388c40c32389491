import QOrder.OneOpen

/-! The sweep decides once, in its select, which sessions are stale, and its update only
asks whether a session is still open. Activity between the two goes unseen. -/

namespace QOrder

open KeyedTable Concurrency

variable {n : Nat} {owner : Uuid → Uuid} {req : Fin n → Request}

/-- The last activity of the session is older than the timeout of its restaurant. -/
def TableSession.Stale (s : TableSession) (c : Catalog) (at_ : Timestamp) : Prop :=
  ∃ rs ∈ c.settings, rs.restaurantId = s.restaurantId ∧ s.lastActivityAt < rs.staleBefore at_

/-- The session that the compare-and-swap of a sweep finds open. -/
def Event.abandons (e : Event n) : Option Uuid :=
  match e.stmt with
  | .command (.abandonSession sessionId) =>
    if e.succeeded && e.before.statusOf sessionId == some .opened then some sessionId else none
  | _ => none

/-- The sweep only switches sessions that are stale at that moment. -/
def SweepsStale (req : Fin n → Request) (h : List (Event n)) : Prop :=
  ∀ e ∈ h, req e.client = .runSweep → ∀ k ∈ e.abandons,
    ∃ s, lookup k e.before.sessions = some s ∧ s.Stale e.catalog e.clock

/-- From the select `e₀` to the update `e` the timeout of the session's restaurant is not raised,
and no commit brings the session back within the timeout. -/
def Calm (k : Uuid) (e₀ : Event n) (h : List (Event n)) (e : Event n) : Prop :=
  (∀ s ∈ lookup k e₀.before.sessions, ∀ rs ∈ e₀.catalog.settings, rs.restaurantId = s.restaurantId →
    ∃ rs' ∈ e.catalog.settings,
      rs'.restaurantId = s.restaurantId ∧ rs'.sessionTimeoutHours ≤ rs.sessionTimeoutHours) ∧
  ∀ x ∈ h, ∀ s ∈ lookup k x.after.sessions, s ∉ lookup k x.before.sessions →
    ∀ rs ∈ e.catalog.settings, rs.restaurantId = s.restaurantId →
      s.lastActivityAt < rs.staleBefore e.clock

instance (k : Uuid) (e₀ : Event n) (h : List (Event n)) (e : Event n) : Decidable (Calm k e₀ h e) :=
  inferInstanceAs (Decidable (_ ∧ _))

/-- The sweeps are calm from each select to each update that follows it. -/
def Undisturbed (h : List (Event n)) : Prop :=
  ∀ pre e₀ mid e post, h = pre ++ e₀ :: (mid ++ e :: post) → e₀.client = e.client →
    e₀.stmt = .query .staleSessions → ∀ k ∈ e.abandons, Calm k e₀ mid e

/-- A history that is calm as a whole is calm between any two of its events. -/
theorem undisturbed_of_forall {h : List (Event n)}
    (hc : ∀ e₀ ∈ h, ∀ e ∈ h, ∀ k ∈ e.abandons, Calm k e₀ h e) : Undisturbed h := by
  intro pre e₀ mid e post hh _ _ k hk
  obtain ⟨hset, hact⟩ := hc e₀ (by simp [hh]) e (by simp [hh]) k hk
  exact ⟨hset, fun x hx => hact x (by simp [hh, hx])⟩

theorem Event.abandons_stmt {e : Event n} {k : Uuid} (h : k ∈ e.abandons) :
    e.stmt = .command (.abandonSession k) := by
  unfold abandons at h
  split at h
  next sessionId hs =>
    split at h
    · rw [hs, Option.mem_some.mp h]
    · cases h
  · cases h

section Sweep

theorem staleBefore_le {rs rs' : RestaurantSettings} {now clock : Timestamp} (hn : now ≤ clock)
    (hh : rs'.sessionTimeoutHours ≤ rs.sessionTimeoutHours) :
    rs.staleBefore now ≤ rs'.staleBefore clock := by
  have hh' : hours rs'.sessionTimeoutHours ≤ hours rs.sessionTimeoutHours := by
    simp only [hours]
    omega
  exact Int.sub_le_sub hn hh'

/-- The session is older than what the settings allow at `at_`. -/
def StaleUnder (rs : RestaurantSettings) (at_ : Timestamp) (k : Uuid) (d : Data) : Prop :=
  ∃ s, lookup k d.sessions = some s ∧ rs.restaurantId = s.restaurantId ∧
    s.lastActivityAt < rs.staleBefore at_

theorem StaleUnder.along {k : Uuid} {e₀ e : Event n} {h : List (Event n)} {d d' : Data}
    {rs : RestaurantSettings} (hw : Between owner req h) (hc : Calm k e₀ h e)
    (hrs : rs ∈ e.catalog.settings) (hf : Follows Event.before Event.after d h d')
    (hs : StaleUnder rs e.clock k d) : StaleUnder rs e.clock k d' := by
  refine hf.rel (R := fun a b => StaleUnder rs e.clock k a → StaleUnder rs e.clock k b)
    (fun _ => id) (fun h₁ h₂ hs => h₂ (h₁ hs)) (fun x hx => ?_) hs
  rintro ⟨s, hs, hr, hlt⟩
  obtain ⟨hb, hen⟩ := hw.entry x hx
  obtain ⟨s', hs', -, hr'⟩ := hen.grows.session hs
  refine ⟨s', hs', hr.trans hr'.symm, ?_⟩
  by_cases hsame : lookup k x.before.sessions = some s'
  · rw [hs] at hsame
    cases hsame
    exact hlt
  · exact hc.2 x hx s' hs' hsame rs hrs (hr.trans hr'.symm)

variable {D : Deployment owner} {p : Clients n}

theorem sweeps_stale (hr : D.Reaches req p) (hcalm : Undisturbed p.state.history) :
    SweepsStale req p.state.history := by
  intro e he hq k ha
  obtain ⟨hb, post, hh⟩ := List.append_of_mem he
  have hen := hr.inv.logged hb e post hh
  -- The client has listed the session in a select of its own.
  obtain ⟨e₀, he₀, hst, s₀, hs₀, rs, hrs, hr₀, hlt⟩ := hen.listed k (Event.abandons_stmt ha) hq
  have hcl : e₀.client = e.client := of_decide_eq_true (List.mem_filter.mp he₀).2
  have hm₀ : e₀ ∈ hb := List.mem_of_mem_filter he₀
  obtain ⟨pre, mid, rfl⟩ := List.append_of_mem hm₀
  have hc := hcalm pre e₀ mid e post (by simpa using hh) hcl hst k ha
  obtain ⟨rs', hrs', hrid, hle⟩ := hc.1 s₀ hs₀ rs hrs hr₀
  obtain ⟨hb₀, -, hen₀⟩ := hr.entry (e := e₀) (by simp [hh])
  have hnow : e₀.now ≤ e.clock := hen₀.began.trans (hen.past e₀ hm₀)
  have hunch : e₀.after = e₀.before := hen₀.other (by simp [Event.isCommit, hst])
  have hf := hr.inv.follows
  rw [hh] at hf
  have hmid := hf.split.1.split.2
  have hstart : StaleUnder rs' e.clock k e₀.after := by
    refine ⟨s₀, hunch ▸ hs₀, hrid, hlt.trans_le ?_⟩
    exact staleBefore_le hnow hle
  have hsplit : p.state.history = (pre ++ [e₀]) ++ mid ++ e :: post := by simpa using hh
  have hw : Between owner req mid := hr.kept.between hsplit
  obtain ⟨s, hs, hsr, hsl⟩ := hstart.along hw hc hrs' hmid
  exact ⟨s, hs, rs', hrs', hsr, hsl⟩

def cafeSweep : Fin 3 → Request
  | 0 => cafeOrder
  | 1 => .runSweep
  | 2 => cafeOrder

/-- The sweep finds a session that has been left for seven hours. -/
theorem sweeps_stale_cafe : ∃ p, cafe.Reaches cafeSweep p ∧ SweepsStale cafeSweep p.state.history ∧
    p.state.data.statusOf 10 = some .abandoned := by
  obtain ⟨p, hr, hc⟩ := cafe.reaches_play cafeSweep
    (fun p => decide (p.state.data.statusOf 10 = some .abandoned ∧
      ∀ e₀ ∈ p.state.history, ∀ e ∈ p.state.history, ∀ k ∈ e.abandons, Calm k e₀ p.state.history e))
    (steps 0 15 ++ .tick (hours 7) (hours 7) :: steps 1 7) (by decide +kernel)
  obtain ⟨hs, hc⟩ := of_decide_eq_true hc
  exact ⟨p, hr, sweeps_stale hr (undisturbed_of_forall hc), hs⟩

/-- A second order arrives after the select and before the update of the sweep. -/
theorem sweeps_stale_fails : ¬ ∀ p, cafe.Reaches cafeSweep p → SweepsStale cafeSweep p.state.history := by
  intro h
  obtain ⟨p, hr, hc⟩ := cafe.reaches_play cafeSweep
    (fun p => p.state.history.any fun e => e.client == 1 && e.abandons == some 10 &&
      (lookup 10 e.before.sessions).any fun s => e.catalog.settings.all fun rs =>
        rs.staleBefore e.clock ≤ s.lastActivityAt)
    (steps 0 15 ++ .tick (hours 7) (hours 7) :: steps 1 1 ++ steps 2 13 ++ steps 1 4) (by decide +kernel)
  obtain ⟨e, he, hc⟩ := List.any_eq_true.mp hc
  simp only [Bool.and_eq_true, beq_iff_eq] at hc
  obtain ⟨⟨hcl, hab⟩, hfresh⟩ := hc
  obtain ⟨s, hs, rs, hrs, -, hlt⟩ := h p hr e he (by rw [hcl]; rfl) 10 hab
  rw [hs] at hfresh
  have hle := of_decide_eq_true (List.all_eq_true.mp hfresh rs hrs)
  exact absurd hlt (not_lt.mpr hle)

end Sweep

end QOrder
