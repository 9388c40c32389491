import QOrder.ExpiringStore
import Mathlib.Logic.Relation

/-! The scheduler's jobs on several instances. A run of a job acquires the job's lock in
Redis, executes the body, and releases the lock if it still holds it. -/

namespace QOrder

open ExpiringStore

/-- The jobs that are wrapped in a lock, each with a key of its own:
`lock:job:abandon_sweep` and `lock:job:report_sync`. -/
inductive Job
  | sweepAbandonedSessions
  | syncReports
  deriving DecidableEq

/-- Where an instance is in its run of a job, with the time at which the lock that the run
has acquired expires. -/
inductive JobPhase
  | idle
  | body (expiresAt : Nat)
  | finally (expiresAt : Nat)
  /-- `current_holder == _INSTANCE_ID`, and the `DEL` is on its way. -/
  | deleting (expiresAt : Nat)
  deriving DecidableEq

/-- A body is over before its lock expires. -/
def JobPhase.inTime (clock : Nat) : JobPhase → Bool
  | .body expiresAt => clock < expiresAt
  | _ => true

structure Scheduler (n : Nat) where
  clock : Nat
  locks : Store Job (Fin n)
  phase : Job → Fin n → JobPhase

namespace Scheduler

variable {n : Nat}

inductive JobAction (n : Nat)
  | tick (clock : Nat)
  | expire (job : Job)
  | acquire (job : Job) (i : Fin n)
  /-- The body returns or raises. -/
  | leaveBody (job : Job) (i : Fin n)
  | getHolder (job : Job) (i : Fin n)
  | delete (job : Job) (i : Fin n)
  /-- An error of Redis is logged, and ends the run; or the process ends. -/
  | fail (job : Job) (i : Fin n)
  deriving DecidableEq

variable (σ : Scheduler n)

def setPhase (job : Job) (i : Fin n) (phase : JobPhase) : Scheduler n :=
  { σ with phase := Function.update σ.phase job (Function.update (σ.phase job) i phase) }

/-- Who holds the lock. -/
def holder (job : Job) : Option (Fin n) := get σ.locks σ.clock job

def perform (ttl : Nat) : JobAction n → Option (Scheduler n)
  | .tick clock =>
    if σ.clock ≤ clock ∧ ∀ i, (σ.phase .sweepAbandonedSessions i).inTime clock ∧
        (σ.phase .syncReports i).inTime clock then some { σ with clock } else none
  | .expire job => some { σ with locks := expire σ.locks σ.clock job }
  | .acquire job i =>
    if σ.phase job i = .idle ∧ 0 < ttl then
      (setNx σ.locks σ.clock job i (σ.clock + ttl)).map fun locks =>
        { σ with locks }.setPhase job i (.body (σ.clock + ttl))
    else none
  | .leaveBody job i =>
    match σ.phase job i with
    | .body expiresAt => some (σ.setPhase job i (.finally expiresAt))
    | _ => none
  | .getHolder job i =>
    match σ.phase job i with
    | .finally expiresAt =>
      some (σ.setPhase job i (if σ.holder job = some i then .deleting expiresAt else .idle))
    | _ => none
  | .delete job i =>
    match σ.phase job i with
    | .deleting _ => some ({ σ with locks := del σ.locks job }.setPhase job i .idle)
    | _ => none
  | .fail job i => some (σ.setPhase job i .idle)

/-- The `DEL` of a release reaches Redis before the lock that its run has acquired expires. -/
def Timely : JobAction n → Prop
  | .delete job i => ∀ expiresAt, σ.phase job i = .deleting expiresAt → σ.clock < expiresAt
  | _ => True

/-- The lock of another instance is deleted. -/
def Steals (job : Job) (i : Fin n) : Prop :=
  (∃ expiresAt, σ.phase job i = .deleting expiresAt) ∧ ∃ j, σ.holder job = some j ∧ j ≠ i

/-- A process starts without a run; what is in Redis may be left from another. -/
def Initial : Prop := ∀ job i, σ.phase job i = .idle

variable {σ}

def Step (ttl : Nat) (σ σ' : Scheduler n) : Prop := ∃ a, σ.perform ttl a = some σ'

def TimelyStep (ttl : Nat) (σ σ' : Scheduler n) : Prop := ∃ a, σ.Timely a ∧ σ.perform ttl a = some σ'

def Reaches (ttl : Nat) : Scheduler n → Scheduler n → Prop := Relation.ReflTransGen (Step ttl)

def TimelyReaches (ttl : Nat) : Scheduler n → Scheduler n → Prop := Relation.ReflTransGen (TimelyStep ttl)

end Scheduler

/-- The lock that a run has acquired. -/
def JobPhase.lock : JobPhase → Option Nat
  | .idle => none
  | .body expiresAt | .finally expiresAt | .deleting expiresAt => some expiresAt

namespace Scheduler

variable {n ttl : Nat} {σ σ' : Scheduler n} {job job' : Job} {i j : Fin n} {phase : JobPhase}
  {expiresAt : Nat} {a : JobAction n}

theorem phase_setPhase : (σ.setPhase job i phase).phase job' j =
    if job' = job ∧ j = i then phase else σ.phase job' j := by
  unfold setPhase
  by_cases hk : job' = job
  · subst hk
    by_cases hj : j = i
    · subst hj
      simp
    · simp [hj]
  · simp [hk]

/-- What an action does when it is possible. -/
inductive Effect (ttl : Nat) (σ : Scheduler n) : JobAction n → Scheduler n → Prop
  | tick {clock : Nat} (hle : σ.clock ≤ clock) (hin : ∀ job i, (σ.phase job i).inTime clock = true) :
      Effect ttl σ (.tick clock) { σ with clock }
  | expire (job : Job) : Effect ttl σ (.expire job) { σ with locks := expire σ.locks σ.clock job }
  | acquire {job : Job} {i : Fin n} (ht : 0 < ttl) (hl : σ.holder job = none) :
      Effect ttl σ (.acquire job i) ({ σ with
        locks := set σ.locks job i (σ.clock + ttl) }.setPhase job i (.body (σ.clock + ttl)))
  | leaveBody {job : Job} {i : Fin n} {expiresAt : Nat} (hp : σ.phase job i = .body expiresAt) :
      Effect ttl σ (.leaveBody job i) (σ.setPhase job i (.finally expiresAt))
  | getOwn {job : Job} {i : Fin n} {expiresAt : Nat} (hp : σ.phase job i = .finally expiresAt) :
      Effect ttl σ (.getHolder job i) (σ.setPhase job i (.deleting expiresAt))
  | getOther {job : Job} {i : Fin n} : Effect ttl σ (.getHolder job i) (σ.setPhase job i .idle)
  | delete {job : Job} {i : Fin n} {expiresAt : Nat} (hp : σ.phase job i = .deleting expiresAt) :
      Effect ttl σ (.delete job i) ({ σ with locks := del σ.locks job }.setPhase job i .idle)
  | fail (job : Job) (i : Fin n) : Effect ttl σ (.fail job i) (σ.setPhase job i .idle)

theorem effect_of_perform (h : σ.perform ttl a = some σ') : Effect ttl σ a σ' := by
  cases a with
  | tick clock =>
    simp only [perform] at h
    split at h
    next hc =>
      cases h
      refine .tick hc.1 fun job i => ?_
      cases job with
      | sweepAbandonedSessions => exact (hc.2 i).1
      | syncReports => exact (hc.2 i).2
    next => cases h
  | expire job =>
    cases h
    exact .expire job
  | acquire job i =>
    simp only [perform] at h
    split at h
    next hc =>
      obtain ⟨locks, hl, rfl⟩ := Option.map_eq_some_iff.mp h
      obtain ⟨hn, rfl⟩ := setNx_eq_some.mp hl
      exact .acquire hc.2 hn
    next => cases h
  | leaveBody job i =>
    simp only [perform] at h
    split at h
    next hp =>
      cases h
      exact .leaveBody hp
    next => cases h
  | getHolder job i =>
    simp only [perform] at h
    split at h
    next hp =>
      cases h
      split
      next => exact .getOwn hp
      next => exact .getOther
    next => cases h
  | delete job i =>
    simp only [perform] at h
    split at h
    next hp =>
      cases h
      exact .delete hp
    next => cases h
  | fail job i =>
    cases h
    exact .fail job i

/-- A run whose lock has not expired holds it, and every body's lock is such. -/
structure Inv (σ : Scheduler n) : Prop where
  own : ∀ {job i expiresAt}, (σ.phase job i).lock = some expiresAt → σ.clock < expiresAt →
    σ.locks job = some ⟨i, expiresAt⟩
  body : ∀ {job i expiresAt}, σ.phase job i = .body expiresAt → σ.clock < expiresAt

theorem Inv.initial (h : σ.Initial) : σ.Inv where
  own hl := by
    rw [h] at hl
    cases hl
  body hp := by
    rw [h] at hp
    cases hp

/-- A run that ends, or goes on with its lock, touches nothing else. -/
theorem Inv.setPhase (h : σ.Inv) (hl : ∀ e, phase.lock = some e → (σ.phase job i).lock = some e)
    (hb : ∀ e, phase ≠ .body e) : (σ.setPhase job i phase).Inv where
  own {job' j e} hlock hlt := by
    rw [phase_setPhase] at hlock
    split at hlock
    next hk =>
      obtain ⟨rfl, rfl⟩ := hk
      exact h.own (hl e hlock) hlt
    next => exact h.own hlock hlt
  body {job' j e} hp := by
    rw [phase_setPhase] at hp
    split at hp
    next => exact absurd hp (hb e)
    next => exact h.body hp

theorem Inv.step (h : σ.Inv) (ht : σ.Timely a) (hs : σ.perform ttl a = some σ') : σ'.Inv := by
  cases effect_of_perform hs with
  | @tick clock hle hin =>
    refine ⟨fun hl hlt => h.own hl (Nat.lt_of_le_of_lt hle hlt), fun {job i e} hp => ?_⟩
    have hi := hin job i
    have hp' : σ.phase job i = .body e := hp
    rw [hp'] at hi
    exact of_decide_eq_true hi
  | expire job => exact ⟨fun hl hlt => expire_live (h.own hl hlt) hlt, fun hp => h.body hp⟩
  | @acquire job i hpos hl =>
    refine ⟨fun {job' j e} hlock hlt => ?_, fun {job' j e} hp => ?_⟩
    · rw [phase_setPhase] at hlock
      split at hlock
      next hk =>
        obtain ⟨rfl, rfl⟩ := hk
        cases hlock
        exact set_self
      next hk =>
        have hown := h.own hlock hlt
        have hne : job' ≠ job := by
          rintro rfl
          have hget : σ.holder job' = some j := get_of_entry hown hlt
          rw [hget] at hl
          cases hl
        exact (set_other hne).trans hown
    · rw [phase_setPhase] at hp
      split at hp
      next =>
        cases hp
        exact Nat.lt_add_of_pos_right hpos
      next => exact h.body hp
  | leaveBody hp => exact h.setPhase (fun e he => by rw [hp]; exact he) fun _ hb => by cases hb
  | getOwn hp => exact h.setPhase (fun e he => by rw [hp]; exact he) fun _ hb => by cases hb
  | getOther => exact h.setPhase (fun e he => by cases he) fun _ hb => by cases hb
  | fail => exact h.setPhase (fun e he => by cases he) fun _ hb => by cases hb
  | @delete job i e hp =>
    have hown := h.own (by rw [hp]; rfl) (ht e hp)
    refine ⟨fun {job' j e'} hlock hlt => ?_, fun {job' j e'} hb => ?_⟩
    · rw [phase_setPhase] at hlock
      split at hlock
      next => cases hlock
      next hk =>
        have hown' := h.own hlock hlt
        have hne : job' ≠ job := by
          rintro rfl
          rw [hown] at hown'
          cases hown'
          exact hk ⟨rfl, rfl⟩
        exact (del_other hne).trans hown'
    · rw [phase_setPhase] at hb
      split at hb
      next => cases hb
      next => exact h.body hb

theorem TimelyReaches.inv (hr : TimelyReaches ttl σ σ') (h : σ.Initial) : σ'.Inv := by
  induction hr with
  | refl => exact .initial h
  | tail _ hs ih =>
    obtain ⟨a, ht, ha⟩ := hs
    exact ih.step ht ha

/-- An entry that an instance has left belongs to its present run. -/
def Fresh (σ : Scheduler n) : Prop := ∀ job i expiresAt expiresAt',
  (σ.phase job i).lock = some expiresAt → σ.locks job = some ⟨i, expiresAt'⟩ → expiresAt' = expiresAt

theorem Fresh.setPhase (h : σ.Fresh) (hl : ∀ e, phase.lock = some e → (σ.phase job i).lock = some e) :
    (σ.setPhase job i phase).Fresh := by
  intro job' j e e' hlock hentry
  rw [phase_setPhase] at hlock
  split at hlock
  next hk =>
    obtain ⟨rfl, rfl⟩ := hk
    exact h _ _ _ _ (hl e hlock) hentry
  next => exact h _ _ _ _ hlock hentry

theorem Fresh.step (h : σ.Fresh) (hs : σ.perform ttl a = some σ') : σ'.Fresh := by
  cases effect_of_perform hs with
  | tick => exact h
  | expire job => exact fun _ _ _ _ hl he => h _ _ _ _ hl (entry_of_expire he)
  | @acquire job i hpos hl =>
    intro job' j e e' hlock hentry
    rw [phase_setPhase] at hlock
    split at hlock
    next hk =>
      obtain ⟨rfl, rfl⟩ := hk
      have hset := set_self.symm.trans hentry
      cases hlock
      cases hset
      rfl
    next hk =>
      by_cases hne : job' = job
      · subst hne
        have hset := set_self.symm.trans hentry
        cases hset
        exact absurd ⟨rfl, rfl⟩ hk
      · exact h _ _ _ _ hlock ((set_other hne).symm.trans hentry)
  | leaveBody hp => exact h.setPhase fun e he => by rw [hp]; exact he
  | getOwn hp => exact h.setPhase fun e he => by rw [hp]; exact he
  | getOther => exact h.setPhase fun e he => by cases he
  | fail => exact h.setPhase fun e he => by cases he
  | @delete job i e hp =>
    have hdel : ({ σ with locks := del σ.locks job } : Scheduler n).Fresh :=
      fun _ _ _ _ hl he => h _ _ _ _ hl (entry_of_del he).2
    exact hdel.setPhase fun e he => by cases he

theorem Reaches.fresh (hr : Reaches ttl σ σ') (h : σ.Initial) : σ'.Fresh := by
  induction hr with
  | refl =>
    intro job i e e' hl
    rw [h] at hl
    cases hl
  | tail _ hs ih =>
    obtain ⟨a, ha⟩ := hs
    exact ih.step ha

/-- A `DEL` that is late, with another instance about to run the job: it can hit a lock
that is not its own. -/
theorem Fresh.late (h : σ.Fresh) (hp : σ.phase job i = .deleting expiresAt) (hle : expiresAt ≤ σ.clock)
    (hj : σ.phase job j = .idle) (hne : j ≠ i) (ht : 0 < ttl) :
    ∃ σ', Reaches ttl σ σ' ∧ σ'.Steals job i := by
  cases hl : σ.holder job with
  | some k =>
    refine ⟨σ, .refl, ⟨expiresAt, hp⟩, k, hl, ?_⟩
    rintro rfl
    obtain ⟨e, he, hlt⟩ := get_eq_some.mp hl
    have hfresh := h _ _ _ _ (by rw [hp]; rfl) he
    omega
  | none =>
    let σ' := { σ with locks := set σ.locks job j (σ.clock + ttl) }.setPhase job j (.body (σ.clock + ttl))
    have hs : σ.perform ttl (.acquire job j) = some σ' := by
      have hset : setNx σ.locks σ.clock job j (σ.clock + ttl) = some (set σ.locks job j (σ.clock + ttl)) :=
        setNx_eq_some.mpr ⟨hl, rfl⟩
      simp only [perform, hj, ht, hset, and_self, if_true, Option.map_some]
      rfl
    have hi : σ'.phase job i = .deleting expiresAt := by
      rw [phase_setPhase, if_neg fun hk => hne hk.2.symm]
      exact hp
    have hheld : σ'.holder job = some j :=
      get_of_entry set_self (Nat.lt_add_of_pos_right ht)
    exact ⟨σ', .single ⟨_, hs⟩, ⟨expiresAt, hi⟩, j, hheld, hne⟩

/-- While every `DEL` is in time, no instance deletes the lock of another and no two are
inside the same job; a `DEL` that is late may meet another's lock. -/
theorem job_lock (n ttl : Nat) (σ₀ σ : Scheduler n) (h₀ : σ₀.Initial) :
    (TimelyReaches ttl σ₀ σ →
      (∀ job i, σ.Timely (.delete job i) → ¬ σ.Steals job i) ∧
      ∀ job i j e e', σ.phase job i = .body e → σ.phase job j = .body e' → i = j) ∧
    (Reaches ttl σ₀ σ → ∀ job i j, ¬ σ.Timely (.delete job i) → σ.phase job j = .idle → j ≠ i →
      0 < ttl → ∃ σ', Reaches ttl σ σ' ∧ σ'.Steals job i) := by
  constructor
  · intro hr
    have hinv := hr.inv h₀
    constructor
    · rintro job i ht ⟨⟨e, hp⟩, j, hl, hne⟩
      have hown := get_of_entry (hinv.own (by rw [hp]; rfl) (ht e hp)) (ht e hp)
      have hsame : some j = some i := hl.symm.trans hown
      exact hne (Option.some.inj hsame)
    · intro job i j e e' hi hj
      have hown := hinv.own (by rw [hi]; rfl) (hinv.body hi)
      have hown' := hinv.own (by rw [hj]; rfl) (hinv.body hj)
      rw [hown] at hown'
      cases hown'
      rfl
  · intro hr job i j hlate hj hne ht
    simp only [Timely, not_forall, Nat.not_lt] at hlate
    obtain ⟨e, hp, hle⟩ := hlate
    exact (hr.fresh h₀).late hp hle hj hne ht

section Replicas

def performAll (ttl : Nat) : List (JobAction n) → Scheduler n → Option (Scheduler n)
  | [], σ => some σ
  | a :: l, σ => (σ.perform ttl a).bind (performAll ttl l)

theorem reaches_performAll {l : List (JobAction n)} (h : performAll ttl l σ = some σ') : Reaches ttl σ σ' := by
  induction l generalizing σ with
  | nil =>
    cases h
    exact .refl
  | cons a l ih =>
    obtain ⟨m, hm, hl⟩ := Option.bind_eq_some_iff.mp h
    exact .head ⟨a, hm⟩ (ih hl)

/-- Two replicas that have just started. -/
def replicas : Scheduler 2 := ⟨0, fun _ => none, fun _ _ => .idle⟩

/-- The first replica is done with the reports before its lock expires, and the second
takes over. -/
theorem job_lock_replicas : ∃ σ : Scheduler 2, TimelyReaches 600 replicas σ ∧
    σ.phase .syncReports 1 = .body 700 ∧ ∀ i e, σ.phase .syncReports i = .body e → i = 1 := by
  have h₁ : TimelyReaches 600 replicas _ := .single ⟨.acquire .syncReports 0, trivial, rfl⟩
  have h₂ := h₁.tail ⟨.leaveBody .syncReports 0, trivial, rfl⟩
  have h₃ := h₂.tail ⟨.getHolder .syncReports 0, trivial, rfl⟩
  have h₄ := h₃.tail ⟨.tick 100, trivial, rfl⟩
  have h₅ := h₄.tail ⟨.delete .syncReports 0, fun e he => by cases he; decide, rfl⟩
  have h₆ := h₅.tail ⟨.acquire .syncReports 1, trivial, rfl⟩
  have hsafe := ((job_lock 2 600 replicas _ fun _ _ => rfl).1 h₆).2
  exact ⟨_, h₆, rfl, fun i e hi => hsafe .syncReports i 1 e 700 hi rfl⟩

/-- The first replica's late `DEL` hits the second's lock, and both are in the job. -/
theorem job_lock_fails : ¬ ∀ (n ttl : Nat) (σ₀ σ : Scheduler n), σ₀.Initial → Reaches ttl σ₀ σ →
    (∀ job i, ¬ σ.Steals job i) ∧
    ∀ job i j e e', σ.phase job i = .body e → σ.phase job j = .body e' → i = j := by
  intro h
  have hr : Reaches 600 replicas _ := reaches_performAll (l := [.acquire .syncReports 0,
    .leaveBody .syncReports 0, .getHolder .syncReports 0, .tick 600, .acquire .syncReports 1,
    .delete .syncReports 0, .acquire .syncReports 0]) rfl
  cases (h 2 600 replicas _ (fun _ _ => rfl) hr).2 .syncReports 0 1 1200 1200 rfl rfl

end Replicas

end Scheduler

end QOrder
