import Mathlib.Data.List.Induction
import Mathlib.Data.List.Infix
import QOrder.SocketHooks

/-! Runs of a socket hook: with which close events every socket is the running effect's. -/

namespace QOrder

def HookAction.isTimer : HookAction → Bool
  | .fired _ => true
  | _ => false

namespace SocketHook

variable {hook : SocketHook} {σ σ' : HookState} {action : HookAction} {actions before : List HookAction}

theorem exec_snoc (actions : List HookAction) (action : HookAction) :
    hook.exec (actions ++ [action]) = (hook.exec actions).bind (hook.step · action) := by
  rw [exec, List.foldlM_append]
  simp [exec, bind, List.foldlM]

theorem Fresh.mono {more : List HookAction} (h : hook.Fresh actions) (hp : more <+: actions) : hook.Fresh more :=
  fun before socket σ σ' hb => h before socket σ σ' (hb.trans hp)

/-- After a run without late close events, what is to come is quiet. -/
theorem quiet_exec (hfresh : hook.Fresh actions) (h : hook.exec actions = some σ) : σ.Quiet := by
  induction actions using List.reverseRecOn generalizing σ with
  | nil =>
    obtain rfl : {} = σ := Option.some.inj h
    exact quiet_init
  | append_singleton actions action ih =>
    rw [exec_snoc] at h
    obtain ⟨σ₀, hσ₀, hstep⟩ := Option.bind_eq_some_iff.mp h
    refine quiet_step (ih (hfresh.mono (List.prefix_append _ _)) hσ₀) hstep ?_
    rintro socket rfl
    exact hfresh actions socket σ₀ σ (List.prefix_refl _) hσ₀ hstep

/-- A step out of a quiet state opens a socket only for the running effect. -/
theorem step_own (h : σ.Quiet) (hstep : hook.step σ action = some σ') :
    ∀ ws ∈ σ'.sockets.drop σ.sockets.length, σ'.current = some ws.effect := by
  intro ws hws
  cases action with
  | effect props =>
    simp only [step] at hstep
    by_cases hnone : σ.current = none
    · rw [if_pos hnone] at hstep
      obtain rfl := Option.some.inj hstep
      rw [connect_current, connect_own hws rfl]
    · rw [if_neg hnone] at hstep
      cases hstep
  | cleanup =>
    simp only [step] at hstep
    by_cases hnone : σ.current = none
    · rw [if_pos hnone] at hstep
      cases hstep
    · rw [if_neg hnone] at hstep
      obtain rfl := Option.some.inj hstep
      cases href : σ.wsRef <;> simp [cleanup, href] at hws
  | opened socket =>
    obtain ⟨x, -, hstep⟩ := Option.bind_eq_some_iff.mp hstep
    by_cases hstate : x.readyState = .connecting
    · rw [if_pos hstate] at hstep
      obtain rfl := Option.some.inj hstep
      simp [onopen] at hws
    · rw [if_neg hstate] at hstep
      cases hstep
  | closed socket =>
    obtain ⟨x, -, hstep⟩ := Option.bind_eq_some_iff.mp hstep
    by_cases hstate : x.readyState = .closed
    · rw [if_pos hstate] at hstep
      cases hstep
    · rw [if_neg hstate] at hstep
      obtain rfl := Option.some.inj hstep
      simp [onclose] at hws
  | fired timer =>
    obtain ⟨t, ht, hstep⟩ := Option.bind_eq_some_iff.mp hstep
    by_cases hp : t.pending = true
    · rw [if_pos hp] at hstep
      obtain rfl := Option.some.inj hstep
      rw [connect_current, connect_own hws rfl]
      exact (h.timer timer t ht hp).2
    · rw [if_neg hp] at hstep
      cases hstep

theorem sound_of_quiet (h : σ.Quiet) (h' : σ'.Quiet) (hstep : hook.step σ action = some σ') : StepSound σ σ' := by
  refine ⟨step_own h hstep, fun i j ws ws' hi hj hl hl' => ?_, fun hnone ws hws => ?_⟩
  · exact Option.some.inj ((h'.live i ws hi hl).1.symm.trans (h'.live j ws' hj hl').1)
  · obtain ⟨i, hi⟩ := List.mem_iff_getElem?.mp hws
    by_contra hl
    have hcurrent := (h'.live i ws hi (by simpa using hl)).2
    rw [hnone] at hcurrent
    cases hcurrent

theorem sound_of_fresh (h : hook.Fresh actions) : hook.Sound actions := by
  intro before action σ σ' hp hσ hstep
  have hσ' : hook.exec (before ++ [action]) = some σ' := by
    rw [exec_snoc, hσ]
    exact hstep
  exact sound_of_quiet (quiet_exec (h.mono ((List.prefix_append _ _).trans hp)) hσ) (quiet_exec (h.mono hp) hσ') hstep

/-- Timers deliver no close event. -/
theorem Fresh.timers {timers : List HookAction} (h : hook.Fresh actions) (ht : ∀ a ∈ timers, a.isTimer) :
    hook.Fresh (actions ++ timers) := by
  induction timers using List.reverseRecOn with
  | nil => rwa [List.append_nil]
  | append_singleton timers action ih =>
    have hfresh := ih fun a ha => ht a (List.mem_append_left _ ha)
    have haction : action.isTimer := ht action (by simp)
    intro before socket σ σ' hp
    rw [← List.append_assoc, List.prefix_concat_iff] at hp
    rcases hp with hp | hp
    · obtain ⟨-, hlast⟩ := List.append_inj' hp rfl
      rw [← (List.cons.inj hlast).1] at haction
      cases haction
    · exact hfresh before socket σ σ' hp

variable (hook) in
/-- A close event after the cleanup leaves a timer that opens a socket for the effect. -/
theorem late_reconnects {socket : Nat} {ws : ClientSocket} (h : σ.Quiet) (hws : σ.sockets[socket]? = some ws) :
    ∃ σ', hook.step (onclose σ socket ws.effect) (.fired σ.timers.length) = some σ' ∧
      ∃ x ∈ σ'.sockets.drop (onclose σ socket ws.effect).sockets.length,
        x.effect = ws.effect ∧ σ'.current = σ.current := by
  have htimer : (onclose σ socket ws.effect).timers[σ.timers.length]? =
      some ⟨ws.effect, min (1000 * 2 ^ σ.attempt) 30000, true⟩ := by
    simp [onclose]
  obtain ⟨token, htoken⟩ := Option.isSome_iff_exists.mp (h.effects socket ws hws)
  refine ⟨_, by rw [step, htimer]; rfl, ⟨ws.effect, hook.url token, .connecting⟩, ?_, rfl, ?_⟩
  · have htarget : (onclose σ socket ws.effect).effects[ws.effect]?.bind target = some token := htoken
    simp [connect, htarget]
  · rw [connect_current]
    rfl

/-- Whenever the timers fire, every socket is the running effect's and at most one is
connecting or open, exactly if no close event comes after the cleanup of its effect. -/
theorem one_socket : (∀ before timers, before <+: actions → (∀ a ∈ timers, HookAction.isTimer a) →
    hook.Sound (before ++ timers)) ↔ hook.Fresh actions := by
  constructor
  · intro hsound
    induction actions using List.reverseRecOn with
    | nil =>
      intro before socket σ σ' hp
      simp at hp
    | append_singleton actions action ih =>
      have hfresh : hook.Fresh actions :=
        ih fun before timers hp ht => hsound before timers (hp.trans (List.prefix_append _ _)) ht
      intro before socket σ σ' hp hσ hstep
      rcases List.prefix_concat_iff.mp hp with hlast | hp
      · -- the close event is the last action: the timer that it sets fires next
        obtain ⟨rfl, hclosed⟩ := List.append_inj' hlast rfl
        obtain rfl := (List.cons.inj hclosed).1
        obtain ⟨ws, hws, hstep'⟩ := Option.bind_eq_some_iff.mp hstep
        have hclose : onclose σ socket ws.effect = σ' := by
          by_cases hstate : ws.readyState = .closed
          · rw [if_pos hstate] at hstep'
            cases hstep'
          · rw [if_neg hstate] at hstep'
            exact Option.some.inj hstep'
        subst hclose
        obtain ⟨σ'', hfired, x, hx, heffect, hcurrent⟩ := late_reconnects hook (quiet_exec hfresh hσ) hws
        have hexec : hook.exec (before ++ [.closed socket]) = some (onclose σ socket ws.effect) := by
          rw [exec_snoc, hσ]
          exact hstep
        have hown := (hsound (before ++ [.closed socket]) [.fired σ.timers.length] (List.prefix_refl _) (by simp [HookAction.isTimer])
          _ _ _ _ (List.prefix_refl _) hexec hfired).own x hx
        rw [hws, Option.map_some, ← heffect, ← hcurrent, hown]
      · exact hfresh before socket σ σ' hp hσ hstep
  · intro hfresh before timers hp ht
    exact sound_of_fresh ((hfresh.mono hp).timers ht)

/-- The page is left with its socket open; the close event comes, and a second later the timer. -/
def lateClose : List HookAction := [.effect ⟨some "qr_abc", true⟩, .opened 0, .cleanup, .closed 0, .fired 0]

theorem one_socket_fails : (¬ ∀ actions, (useWebSocket "ws://localhost:8000").Sound actions) ∧
    ¬ ∀ actions, (useKitchenWebSocket "ws://localhost:8000").Sound actions := by
  constructor
  · intro hsound
    have hlate := hsound lateClose (lateClose.take 4) (.fired 0)
    have hown := (hlate _ _ (List.prefix_refl _) rfl rfl).own _ (List.mem_singleton_self _)
    cases hown
  · intro hsound
    have hlate := hsound lateClose (lateClose.take 4) (.fired 0)
    have hown := (hlate _ _ (List.prefix_refl _) rfl rfl).own _ (List.mem_singleton_self _)
    cases hown

end SocketHook

end QOrder
