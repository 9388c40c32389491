import Mathlib.Algebra.Group.Nat.Defs
import Mathlib.Data.List.Basic

/-! The socket hooks of the two pages: effects that connect, close events that schedule a
reconnection, and cleanups, over the refs that all of them share. -/

namespace QOrder

inductive ReadyState
  | connecting | opened | closing | closed
  deriving DecidableEq, Repr

/-- Connecting or open. -/
def ReadyState.live : ReadyState → Bool
  | .connecting | .opened => true
  | .closing | .closed => false

/-- `close()` does nothing to a socket that is closing or closed. -/
def ReadyState.close : ReadyState → ReadyState
  | .closed => .closed
  | _ => .closing

/-- What an effect has in its closure. -/
structure EffectProps where
  token : Option String
  enabled : Bool
  deriving DecidableEq, Repr

structure ClientSocket where
  effect : Nat
  url : String
  readyState : ReadyState
  deriving DecidableEq, Repr

/-- A call of `setTimeout` in the `onclose` of a socket of the effect. -/
structure BackoffTimer where
  effect : Nat
  delay : Nat
  pending : Bool
  deriving DecidableEq, Repr

/-- Effects, sockets and timers are known by their places. -/
structure HookState where
  effects : List EffectProps := []
  current : Option Nat := none
  sockets : List ClientSocket := []
  timers : List BackoffTimer := []
  wsRef : Option Nat := none
  reconnectTimerRef : Option Nat := none
  attempt : Nat := 0
  hasConnectedOnce : Bool := false
  resyncs : Nat := 0
  deriving DecidableEq, Repr

/-- Where a hook connects to, and whether it resyncs when it is connected again. -/
structure SocketHook where
  url : String → String
  resync : Bool

def useWebSocket (wsBaseUrl : String) : SocketHook := ⟨fun qrToken => wsBaseUrl ++ "/ws/t/" ++ qrToken, false⟩

def useKitchenWebSocket (wsBaseUrl : String) : SocketHook :=
  ⟨fun ticket => wsBaseUrl ++ "/ws/kitchen?ticket=" ++ ticket, true⟩

inductive HookAction
  | effect (props : EffectProps)
  | cleanup
  | opened (socket : Nat)
  | closed (socket : Nat)
  | fired (timer : Nat)
  deriving DecidableEq, Repr

namespace SocketHook

variable (hook : SocketHook)

/-- An empty token counts as missing. -/
def target (props : EffectProps) : Option String := if props.enabled then props.token.filter (· ≠ "") else none

/-- `connect` with the closure of the effect. -/
def connect (effect : Nat) (σ : HookState) : HookState :=
  match σ.effects[effect]?.bind target with
  | none => σ
  | some token =>
    { σ with sockets := σ.sockets ++ [⟨effect, hook.url token, .connecting⟩], wsRef := some σ.sockets.length }

def setReadyState (σ : HookState) (socket : Nat) (f : ReadyState → ReadyState) : List ClientSocket :=
  σ.sockets.modify socket fun ws => { ws with readyState := f ws.readyState }

def onopen (σ : HookState) (socket : Nat) : HookState :=
  { σ with
    sockets := setReadyState σ socket fun _ => .opened
    attempt := 0
    hasConnectedOnce := hook.resync
    resyncs := if hook.resync && σ.hasConnectedOnce then σ.resyncs + 1 else σ.resyncs }

def onclose (σ : HookState) (socket effect : Nat) : HookState :=
  { σ with
    sockets := setReadyState σ socket fun _ => .closed
    wsRef := none
    timers := σ.timers ++ [⟨effect, min (1000 * 2 ^ σ.attempt) 30000, true⟩]
    reconnectTimerRef := some σ.timers.length
    attempt := σ.attempt + 1 }

def clearTimeout (timers : List BackoffTimer) (timer : Nat) : List BackoffTimer :=
  timers.modify timer fun t => { t with pending := false }

/-- The cleanup of the effect that ran last. -/
def cleanup (σ : HookState) : HookState :=
  { σ with
    current := none
    timers := (σ.reconnectTimerRef.map (clearTimeout σ.timers)).getD σ.timers
    reconnectTimerRef := none
    sockets := (σ.wsRef.map fun socket => setReadyState σ socket ReadyState.close).getD σ.sockets
    wsRef := none }

def step (σ : HookState) : HookAction → Option HookState
  | .effect props =>
    if σ.current = none then
      some (hook.connect σ.effects.length
        { σ with effects := σ.effects ++ [props], current := some σ.effects.length })
    else none
  | .cleanup => if σ.current = none then none else some (cleanup σ)
  | .opened socket => do
    let ws ← σ.sockets[socket]?
    if ws.readyState = .connecting then some (hook.onopen σ socket) else none
  | .closed socket => do
    let ws ← σ.sockets[socket]?
    if ws.readyState = .closed then none else some (onclose σ socket ws.effect)
  | .fired timer => do
    let t ← σ.timers[timer]?
    if t.pending then some (hook.connect t.effect { σ with timers := clearTimeout σ.timers timer }) else none

/-- The state after the actions, where each of them is possible. -/
def exec (actions : List HookAction) : Option HookState := actions.foldlM hook.step {}

/-- What an action is to leave: a socket that it has opened is the running effect's, no two
sockets are connecting or open, and none is without a running effect. -/
structure StepSound (σ σ' : HookState) : Prop where
  own : ∀ ws ∈ σ'.sockets.drop σ.sockets.length, σ'.current = some ws.effect
  single : ∀ (i j : Nat) (ws ws' : ClientSocket), σ'.sockets[i]? = some ws → σ'.sockets[j]? = some ws' →
    ws.readyState.live → ws'.readyState.live → i = j
  unmounted : σ'.current = none → ∀ ws ∈ σ'.sockets, ws.readyState.live = false

/-- Every action of the run leaves what it should. -/
def Sound (actions : List HookAction) : Prop :=
  ∀ before action σ σ', before ++ [action] <+: actions → hook.exec before = some σ →
    hook.step σ action = some σ' → StepSound σ σ'

/-- No close event comes after the cleanup of the effect that has opened the socket. -/
def Fresh (actions : List HookAction) : Prop :=
  ∀ before socket σ σ', before ++ [.closed socket] <+: actions → hook.exec before = some σ →
    hook.step σ (.closed socket) = some σ' → σ.sockets[socket]?.map ClientSocket.effect = σ.current

end SocketHook

/-- No socket is connecting or open. -/
def HookState.Idle (σ : HookState) : Prop :=
  ∀ (i : Nat) (ws : ClientSocket), σ.sockets[i]? = some ws → ws.readyState.live = false

def HookState.Unscheduled (σ : HookState) : Prop :=
  ∀ (i : Nat) (t : BackoffTimer), σ.timers[i]? = some t → t.pending = false

/-- What is still to come belongs to the running effect, and is known by its ref: one socket
that is connecting or open, or one timer. -/
structure HookState.Quiet (σ : HookState) : Prop where
  effects : ∀ (i : Nat) (ws : ClientSocket), σ.sockets[i]? = some ws →
    (σ.effects[ws.effect]?.bind SocketHook.target).isSome
  live : ∀ (i : Nat) (ws : ClientSocket), σ.sockets[i]? = some ws → ws.readyState.live →
    σ.wsRef = some i ∧ σ.current = some ws.effect
  closing : ∀ (i : Nat) (ws : ClientSocket), σ.sockets[i]? = some ws → ws.readyState = .closing →
    σ.current ≠ some ws.effect
  timer : ∀ (i : Nat) (t : BackoffTimer), σ.timers[i]? = some t → t.pending →
    σ.reconnectTimerRef = some i ∧ σ.current = some t.effect
  apart : ∀ (i : Nat) (t : BackoffTimer), σ.timers[i]? = some t → t.pending → σ.Idle

namespace SocketHook

variable {hook : SocketHook} {σ σ' : HookState} {e i socket timer : Nat} {ws : ClientSocket} {t : BackoffTimer}
  {f : ReadyState → ReadyState}

theorem quiet_init : HookState.Quiet {} := by
  constructor <;> simp

section Lists

theorem getElem?_setReadyState (h : (setReadyState σ socket f)[i]? = some ws) : ∃ ws', σ.sockets[i]? = some ws' ∧
    ws.effect = ws'.effect ∧ ws.readyState = if socket = i then f ws'.readyState else ws'.readyState := by
  rw [setReadyState, List.getElem?_modify] at h
  obtain ⟨ws', hws', rfl⟩ := Option.map_eq_some_iff.mp h
  refine ⟨ws', hws', ?_⟩
  by_cases hi : socket = i
  · rw [if_pos hi, if_pos hi]
    exact ⟨rfl, rfl⟩
  · rw [if_neg hi, if_neg hi]
    exact ⟨rfl, rfl⟩

@[simp] theorem length_setReadyState : (setReadyState σ socket f).length = σ.sockets.length := by
  rw [setReadyState, List.length_modify]

@[simp] theorem drop_setReadyState : (setReadyState σ socket f).drop σ.sockets.length = [] :=
  List.drop_eq_nil_of_le (Nat.le_of_eq length_setReadyState)

theorem getElem?_clearTimeout {timers : List BackoffTimer} (h : (clearTimeout timers timer)[i]? = some t)
    (hp : t.pending) : timers[i]? = some t ∧ i ≠ timer := by
  rw [clearTimeout, List.getElem?_modify] at h
  obtain ⟨t', ht', rfl⟩ := Option.map_eq_some_iff.mp h
  by_cases hi : timer = i
  · rw [if_pos hi] at hp
    cases hp
  · rw [if_neg hi]
    exact ⟨ht', Ne.symm hi⟩

/-- The new element of a longer list is the last. -/
theorem getElem?_snoc {α : Type} {l : List α} {x y : α} (h : (l ++ [x])[i]? = some y) :
    l[i]? = some y ∨ i = l.length ∧ y = x := by
  by_cases hi : i < l.length
  · rw [List.getElem?_append_left hi] at h
    exact .inl h
  · rw [List.getElem?_append_right (by omega)] at h
    have hlen : i - l.length < [x].length := by
      by_contra hge
      rw [List.getElem?_eq_none (by omega)] at h
      cases h
    have hi' : i = l.length := by
      rw [List.length_singleton] at hlen
      omega
    rw [hi', Nat.sub_self] at h
    exact .inr ⟨hi', (Option.some.inj h).symm⟩

end Lists

theorem lt_of_target {effects : List EffectProps} (h : (effects[e]?.bind target).isSome) : e < effects.length := by
  by_contra hge
  rw [List.getElem?_eq_none (by omega)] at h
  cases h

section Connect

/-- With nothing else to come, the running effect may connect. -/
theorem quiet_connect (h : σ.Quiet) (hcurrent : σ.current = some e)
    (hlive : σ.Idle) (hpending : σ.Unscheduled) : (hook.connect e σ).Quiet := by
  unfold connect
  cases htarget : σ.effects[e]?.bind target with
  | none => exact h
  | some token =>
    refine ⟨fun i ws hws => ?_, fun i ws hws hl => ?_, fun i ws hws hc => ?_, fun i t ht hp => ?_,
      fun i t ht hp => ?_⟩
    · rcases getElem?_snoc hws with hws | ⟨-, rfl⟩
      · exact h.effects i ws hws
      · rw [htarget]
        rfl
    · rcases getElem?_snoc hws with hws | ⟨rfl, rfl⟩
      · rw [hlive i ws hws] at hl
        cases hl
      · exact ⟨rfl, hcurrent⟩
    · rcases getElem?_snoc hws with hws | ⟨-, rfl⟩
      · exact h.closing i ws hws hc
      · cases hc
    · exact absurd hp (by simp [hpending i t ht])
    · exact absurd hp (by simp [hpending i t ht])

theorem connect_own {n : Nat} (hws : ws ∈ (hook.connect e σ).sockets.drop n) (hn : σ.sockets.length = n) :
    ws.effect = e := by
  subst hn
  unfold connect at hws
  cases htarget : σ.effects[e]?.bind target with
  | none =>
    rw [htarget] at hws
    simp at hws
  | some token =>
    rw [htarget] at hws
    simp only [List.drop_left, List.mem_singleton] at hws
    rw [hws]

theorem connect_current : (hook.connect e σ).current = σ.current := by
  unfold connect
  cases σ.effects[e]?.bind target <;> rfl

end Connect

section Steps

theorem quiet_effect {props : EffectProps} (h : σ.Quiet) (hnone : σ.current = none) :
    (hook.connect σ.effects.length
      { σ with effects := σ.effects ++ [props], current := some σ.effects.length }).Quiet := by
  have hlive : σ.Idle := by
    intro i ws hws
    by_contra hl
    have hcurrent := (h.live i ws hws (by simpa using hl)).2
    rw [hnone] at hcurrent
    cases hcurrent
  have hpending : σ.Unscheduled := by
    intro i t ht
    by_contra hp
    have hcurrent := (h.timer i t ht (by simpa using hp)).2
    rw [hnone] at hcurrent
    cases hcurrent
  refine quiet_connect ?_ rfl hlive hpending
  refine ⟨fun i ws hws => ?_, fun i ws hws hl => ?_, fun i ws hws hc he => ?_, fun i t ht hp => ?_,
    fun _ _ _ _ => hlive⟩
  · have htarget := h.effects i ws hws
    rw [List.getElem?_append_left (lt_of_target htarget)]
    exact htarget
  · rw [hlive i ws hws] at hl
    cases hl
  · have hlt := lt_of_target (h.effects i ws hws)
    have heq : σ.effects.length = ws.effect := Option.some.inj he
    omega
  · rw [hpending i t ht] at hp
    cases hp

theorem quiet_cleanup (h : σ.Quiet) : (cleanup σ).Quiet := by
  have hlive : ∀ (i : Nat) (ws : ClientSocket), (cleanup σ).sockets[i]? = some ws →
      ws.readyState.live = false ∧ ∃ ws', σ.sockets[i]? = some ws' ∧ ws.effect = ws'.effect := by
    intro i ws hws
    cases href : σ.wsRef with
    | none =>
      simp only [cleanup, href, Option.map_none, Option.getD_none] at hws
      refine ⟨?_, ws, hws, rfl⟩
      by_contra hl
      have hsome := (h.live i ws hws (by simpa using hl)).1
      rw [href] at hsome
      cases hsome
    | some socket =>
      simp only [cleanup, href, Option.map_some, Option.getD_some] at hws
      obtain ⟨ws', hws', heffect, hstate⟩ := getElem?_setReadyState hws
      refine ⟨?_, ws', hws', heffect⟩
      by_cases hi : socket = i
      · rw [hstate, if_pos hi]
        cases ws'.readyState <;> rfl
      · rw [hstate, if_neg hi]
        by_contra hl
        have hsome := (h.live i ws' hws' (by simpa using hl)).1
        rw [href] at hsome
        exact hi (Option.some.inj hsome)
  have hpending : (cleanup σ).Unscheduled := by
    intro i t ht
    by_contra hp
    have hp' : t.pending := by
      simpa using hp
    cases href : σ.reconnectTimerRef with
    | none =>
      simp only [cleanup, href, Option.map_none, Option.getD_none] at ht
      have hsome := (h.timer i t ht hp').1
      rw [href] at hsome
      cases hsome
    | some timer =>
      simp only [cleanup, href, Option.map_some, Option.getD_some] at ht
      obtain ⟨ht', hne⟩ := getElem?_clearTimeout ht hp'
      have hsome := (h.timer i t ht' hp').1
      rw [href] at hsome
      exact hne (Option.some.inj hsome).symm
  refine ⟨fun i ws hws => ?_, fun i ws hws hl => ?_, fun i ws hws hc he => ?_, fun i t ht hp => ?_,
    fun _ _ _ _ j ws hws => (hlive j ws hws).1⟩
  · obtain ⟨-, ws', hws', heffect⟩ := hlive i ws hws
    rw [heffect]
    exact h.effects i ws' hws'
  · rw [(hlive i ws hws).1] at hl
    cases hl
  · cases he
  · rw [hpending i t ht] at hp
    cases hp

theorem quiet_opened (h : σ.Quiet) (hws : σ.sockets[socket]? = some ws) (hstate : ws.readyState = .connecting) :
    (hook.onopen σ socket).Quiet := by
  have hlive : ∀ (i : Nat) (x : ClientSocket), (hook.onopen σ socket).sockets[i]? = some x →
      ∃ x' : ClientSocket, σ.sockets[i]? = some x' ∧ x.effect = x'.effect ∧ x.readyState.live = x'.readyState.live ∧
        (x.readyState = .closing → x'.readyState = .closing) := by
    intro i x hx
    have hset : (setReadyState σ socket fun _ => .opened)[i]? = some x := hx
    obtain ⟨x', hx', heffect, hx''⟩ := getElem?_setReadyState hset
    refine ⟨x', hx', heffect, ?_⟩
    by_cases hi : socket = i
    · subst hi
      obtain rfl : ws = x' := Option.some.inj (hws.symm.trans hx')
      rw [hx'', if_pos rfl, hstate]
      exact ⟨rfl, fun h => by cases h⟩
    · rw [hx'', if_neg hi]
      exact ⟨rfl, id⟩
  refine ⟨fun i x hx => ?_, fun i x hx hl => ?_, fun i x hx hc => ?_, h.timer, fun i t ht hp j x hx => ?_⟩
  · obtain ⟨x', hx', heffect, -⟩ := hlive i x hx
    rw [heffect]
    exact h.effects i x' hx'
  · obtain ⟨x', hx', heffect, hsame, -⟩ := hlive i x hx
    rw [heffect]
    exact h.live i x' hx' (hsame ▸ hl)
  · obtain ⟨x', hx', heffect, -, hclosing⟩ := hlive i x hx
    rw [heffect]
    exact h.closing i x' hx' (hclosing hc)
  · obtain ⟨x', hx', -, hsame, -⟩ := hlive j x hx
    rw [hsame]
    exact h.apart i t ht hp j x' hx'

/-- The running effect's socket closes: the timer takes its place. -/
theorem quiet_closed (h : σ.Quiet) (hws : σ.sockets[socket]? = some ws) (hopen : ws.readyState ≠ .closed)
    (hfresh : σ.current = some ws.effect) : (onclose σ socket ws.effect).Quiet := by
  have hlive : ws.readyState.live := by
    cases hstate : ws.readyState with
    | closing => exact absurd hfresh (h.closing socket ws hws hstate)
    | closed => exact absurd hstate hopen
    | _ => rfl
  have hothers : ∀ (i : Nat) (x : ClientSocket), (onclose σ socket ws.effect).sockets[i]? = some x →
      ∃ x' : ClientSocket, σ.sockets[i]? = some x' ∧ x.effect = x'.effect ∧ x.readyState.live = false ∧
        (x.readyState = .closing → x'.readyState = .closing) := by
    intro i x hx
    have hset : (setReadyState σ socket fun _ => .closed)[i]? = some x := hx
    obtain ⟨x', hx', heffect, hx''⟩ := getElem?_setReadyState hset
    refine ⟨x', hx', heffect, ?_⟩
    by_cases hi : socket = i
    · rw [hx'', if_pos hi]
      exact ⟨rfl, fun h => by cases h⟩
    · rw [hx'', if_neg hi]
      refine ⟨?_, id⟩
      by_contra hl
      have hsame := (h.live socket ws hws hlive).1.symm.trans (h.live i x' hx' (by simpa using hl)).1
      exact hi (Option.some.inj hsame)
  have hpending : σ.Unscheduled := by
    intro i t ht
    by_contra hp
    have hidle := h.apart i t ht (by simpa using hp) socket ws hws
    rw [hlive] at hidle
    cases hidle
  refine ⟨fun i x hx => ?_, fun i x hx hl => ?_, fun i x hx hc => ?_, fun i t ht hp => ?_,
    fun _ _ _ _ i x hx => ?_⟩
  · obtain ⟨x', hx', heffect, -⟩ := hothers i x hx
    rw [heffect]
    exact h.effects i x' hx'
  · obtain ⟨-, -, -, hdead, -⟩ := hothers i x hx
    rw [hdead] at hl
    cases hl
  · obtain ⟨x', hx', heffect, -, hclosing⟩ := hothers i x hx
    rw [heffect]
    exact h.closing i x' hx' (hclosing hc)
  · rcases getElem?_snoc ht with ht | ⟨rfl, rfl⟩
    · exact absurd hp (by simp [hpending i t ht])
    · exact ⟨rfl, hfresh⟩
  · obtain ⟨-, -, -, hdead, -⟩ := hothers i x hx
    exact hdead

/-- The timer fires: the running effect connects again. -/
theorem quiet_fired (h : σ.Quiet) (ht : σ.timers[timer]? = some t) (hp : t.pending) :
    (hook.connect t.effect { σ with timers := clearTimeout σ.timers timer }).Quiet := by
  have hpending : ∀ (i : Nat) (t' : BackoffTimer), (clearTimeout σ.timers timer)[i]? = some t' →
      t'.pending = false := by
    intro i t' ht'
    by_contra hp'
    obtain ⟨hold, hne⟩ := getElem?_clearTimeout ht' (by simpa using hp')
    have hsame := (h.timer i t' hold (by simpa using hp')).1.symm.trans (h.timer timer t ht hp).1
    exact hne (Option.some.inj hsame)
  refine quiet_connect ?_ (h.timer timer t ht hp).2 (h.apart timer t ht hp) hpending
  exact ⟨h.effects, h.live, h.closing, fun i t' ht' hp' => absurd hp' (by simp [hpending i t' ht']),
    fun i t' ht' hp' => absurd hp' (by simp [hpending i t' ht'])⟩

/-- A step that delivers no close event of a cleaned effect keeps what is to come quiet. -/
theorem quiet_step {action : HookAction} (h : σ.Quiet) (hstep : hook.step σ action = some σ')
    (hfresh : ∀ socket, action = .closed socket → σ.sockets[socket]?.map ClientSocket.effect = σ.current) : σ'.Quiet := by
  cases action with
  | effect props =>
    simp only [step] at hstep
    by_cases hnone : σ.current = none
    · rw [if_pos hnone] at hstep
      obtain rfl := Option.some.inj hstep
      exact quiet_effect h hnone
    · rw [if_neg hnone] at hstep
      cases hstep
  | cleanup =>
    simp only [step] at hstep
    by_cases hnone : σ.current = none
    · rw [if_pos hnone] at hstep
      cases hstep
    · rw [if_neg hnone] at hstep
      obtain rfl := Option.some.inj hstep
      exact quiet_cleanup h
  | opened socket =>
    obtain ⟨ws, hws, hstep⟩ := Option.bind_eq_some_iff.mp hstep
    by_cases hstate : ws.readyState = .connecting
    · rw [if_pos hstate] at hstep
      obtain rfl := Option.some.inj hstep
      exact quiet_opened h hws hstate
    · rw [if_neg hstate] at hstep
      cases hstep
  | closed socket =>
    obtain ⟨ws, hws, hstep⟩ := Option.bind_eq_some_iff.mp hstep
    by_cases hstate : ws.readyState = .closed
    · rw [if_pos hstate] at hstep
      cases hstep
    · rw [if_neg hstate] at hstep
      obtain rfl := Option.some.inj hstep
      have hcurrent := hfresh socket rfl
      rw [hws] at hcurrent
      exact quiet_closed h hws hstate hcurrent.symm
  | fired timer =>
    obtain ⟨t, ht, hstep⟩ := Option.bind_eq_some_iff.mp hstep
    by_cases hp : t.pending = true
    · rw [if_pos hp] at hstep
      obtain rfl := Option.some.inj hstep
      exact quiet_fired h ht hp
    · rw [if_neg hp] at hstep
      cases hstep

end Steps

end SocketHook

end QOrder
