import Mathlib.Logic.Relation
import QOrder.Program

/-! Interleaved runs of programs on a shared state, and a rely-guarantee logic for
them. A discipline says what a thread may rely on at each of its statements: the
others only execute statements whose precondition holds. -/

namespace Concurrency

variable {T S Q : Type} {R : Q → Type} {F E A B : Type}

structure Machine (T S Q : Type) (R : Q → Type) (F : Type) where
  exec : T → (q : Q) → S → Except F (R q) → S → Prop
  env : S → S → Prop

structure Pool (T S Q : Type) (R : Q → Type) (F E A : Type) where
  state : S
  threads : T → Prog Q R F E A

section Runs

variable [DecidableEq T] (M : Machine T S Q R F)

inductive Machine.Step : Pool T S Q R F E A → Pool T S Q R F E A → Prop
  | exec {p : Pool T S Q R F E A} {t : T} {q : Q} {k : Except F (R q) → Prog Q R F E A}
      {r : Except F (R q)} {σ : S} (hp : p.threads t = .stmt q k) (hx : M.exec t q p.state r σ) :
      Step p ⟨σ, Function.update p.threads t (k r)⟩
  | env {p : Pool T S Q R F E A} {σ : S} (he : M.env p.state σ) : Step p ⟨σ, p.threads⟩

abbrev Machine.Reachable : Pool T S Q R F E A → Pool T S Q R F E A → Prop :=
  Relation.ReflTransGen M.Step

/-- The machine whose threads execute a statement only where `C` allows it. -/
def Machine.restrict (C : T → Q → S → Prop) : Machine T S Q R F where
  exec t q σ r σ' := C t q σ ∧ M.exec t q σ r σ'
  env := M.env

variable {M}

theorem Machine.Step.of_restrict {C : T → Q → S → Prop} {p p' : Pool T S Q R F E A}
    (h : (M.restrict C).Step p p') : M.Step p p' := by
  cases h with
  | exec hp hx => exact .exec hp hx.2
  | env he => exact .env he

theorem Machine.Reachable.of_restrict {C : T → Q → S → Prop} {p p' : Pool T S Q R F E A}
    (h : (M.restrict C).Reachable p p') : M.Reachable p p' :=
  Relation.ReflTransGen.mono (fun _ _ hh => hh.of_restrict) _ _ h

/-- A program run alone by one thread of a pool is a run of the pool. -/
theorem Machine.reachable_run {t : T} {step : (q : Q) → S → Except F (R q) × S}
    (hstep : ∀ q σ, M.exec t q σ (step q σ).1 (step q σ).2) (p : Prog Q R F E A) (σ : S)
    (threads : T → Prog Q R F E A) :
    M.Reachable ⟨σ, Function.update threads t p⟩
      ⟨(p.run step σ).2, Function.update threads t
        (match (p.run step σ).1 with | .ok a => .ret a | .error e => .raise e)⟩ := by
  induction p generalizing σ with
  | ret a => exact .refl
  | raise e => exact .refl
  | stmt q k ih =>
    have hs : M.Step ⟨σ, Function.update threads t (.stmt q k)⟩
        ⟨(step q σ).2, Function.update threads t (k (step q σ).1)⟩ := by
      simpa only [Function.update_idem] using
        Machine.Step.exec (p := ⟨σ, Function.update threads t (.stmt q k)⟩)
          (Function.update_self ..) (hstep q σ)
    exact .head hs (ih (step q σ).1 (step q σ).2)

end Runs

/-- What every thread keeps to: `pre t q` holds wherever `t` is about to execute
`q`, and statements executed under it preserve `inv`. -/
structure Discipline (M : Machine T S Q R F) where
  inv : S → Prop
  pre : T → Q → S → Prop
  exec_inv : ∀ {t q σ r σ'}, inv σ → pre t q σ → M.exec t q σ r σ' → inv σ'
  env_inv : ∀ {σ σ'}, inv σ → M.env σ σ' → inv σ'

namespace Discipline

variable {M : Machine T S Q R F} (D : Discipline M)

/-- One step taken by anyone but `t`. -/
def Interference (t : T) (σ σ' : S) : Prop :=
  D.inv σ ∧ D.inv σ' ∧ (M.env σ σ' ∨ ∃ u q r, u ≠ t ∧ D.pre u q σ ∧ M.exec u q σ r σ')

abbrev Rely (t : T) : S → S → Prop := Relation.ReflTransGen (D.Interference t)

def Stable (t : T) (P : S → Prop) : Prop := ∀ ⦃σ σ'⦄, D.Interference t σ σ' → P σ → P σ'

/-- `t` keeps to the discipline while it runs the program from `σ`, and ends in `post`. -/
def Safe (t : T) : Prog Q R F E A → (Except E A → S → Prop) → S → Prop
  | .ret a, post, σ => ∀ σ', D.Rely t σ σ' → D.inv σ' → post (.ok a) σ'
  | .raise e, post, σ => ∀ σ', D.Rely t σ σ' → D.inv σ' → post (.error e) σ'
  | .stmt q k, post, σ => ∀ σ₁, D.Rely t σ σ₁ → D.inv σ₁ →
      D.pre t q σ₁ ∧ ∀ r σ₂, M.exec t q σ₁ r σ₂ → Safe t (k r) post σ₂

variable {D} {t : T} {P : S → Prop} {post : Except E A → S → Prop} {σ σ' : S}

theorem Stable.rely (hP : D.Stable t P) (h : D.Rely t σ σ') (hσ : P σ) : P σ' := by
  induction h with
  | refl => exact hσ
  | tail _ hs ih => exact hP hs ih

theorem Safe.rely {p : Prog Q R F E A} (h : D.Safe t p post σ) (hr : D.Rely t σ σ') :
    D.Safe t p post σ' := by
  cases p with
  | ret a => exact fun σ₁ h₁ hi => h σ₁ (hr.trans h₁) hi
  | raise e => exact fun σ₁ h₁ hi => h σ₁ (hr.trans h₁) hi
  | stmt q k => exact fun σ₁ h₁ hi => h σ₁ (hr.trans h₁) hi

theorem Safe.ret {a : A} (hs : D.Stable t P) (hP : P σ)
    (h : ∀ σ', D.inv σ' → P σ' → post (.ok a) σ') : D.Safe t (.ret a) post σ :=
  fun σ' hr hi => h σ' hi (hs.rely hr hP)

theorem Safe.raise {e : E} (hs : D.Stable t P) (hP : P σ)
    (h : ∀ σ', D.inv σ' → P σ' → post (.error e) σ') : D.Safe t (.raise e) post σ :=
  fun σ' hr hi => h σ' hi (hs.rely hr hP)

theorem Safe.stmt {q : Q} {k : Except F (R q) → Prog Q R F E A} (hs : D.Stable t P) (hP : P σ)
    (h : ∀ σ₁, D.inv σ₁ → P σ₁ → D.pre t q σ₁ ∧
      ∀ r σ₂, M.exec t q σ₁ r σ₂ → D.Safe t (k r) post σ₂) :
    D.Safe t (.stmt q k) post σ :=
  fun σ₁ hr hi => h σ₁ hi (hs.rely hr hP)

theorem Safe.mono {p : Prog Q R F E A} {post' : Except E A → S → Prop} (h : D.Safe t p post σ)
    (hpost : ∀ r σ, D.inv σ → post r σ → post' r σ) : D.Safe t p post' σ := by
  induction p generalizing σ with
  | ret a => exact fun σ' hr hi => hpost _ _ hi (h σ' hr hi)
  | raise e => exact fun σ' hr hi => hpost _ _ hi (h σ' hr hi)
  | stmt q k ih =>
    intro σ₁ hr hi
    obtain ⟨hpre, hk⟩ := h σ₁ hr hi
    exact ⟨hpre, fun r σ₂ hx => ih r (hk r σ₂ hx)⟩

theorem Safe.bind {p : Prog Q R F E A} {f : A → Prog Q R F E B} {mid : Except E A → S → Prop}
    {post : Except E B → S → Prop} (hi : D.inv σ) (h : D.Safe t p mid σ)
    (hok : ∀ a σ', D.inv σ' → mid (.ok a) σ' → D.Safe t (f a) post σ')
    (herr : ∀ e σ', D.inv σ' → mid (.error e) σ' → post (.error e) σ') :
    D.Safe t (p >>= f) post σ := by
  induction p generalizing σ with
  | ret a => exact hok a σ hi (h σ .refl hi)
  | raise e => exact fun σ' hr hi' => herr e σ' hi' (h σ' hr hi')
  | stmt q k ih =>
    intro σ₁ hr hi₁
    obtain ⟨hpre, hk⟩ := h σ₁ hr hi₁
    exact ⟨hpre, fun r σ₂ hx => ih r (D.exec_inv hi₁ hpre hx) (hk r σ₂ hx)⟩

theorem Safe.tryCatch {p : Prog Q R F E A} {f : E → Prog Q R F E A} {mid : Except E A → S → Prop}
    (hi : D.inv σ) (h : D.Safe t p mid σ)
    (hok : ∀ a σ', D.inv σ' → mid (.ok a) σ' → post (.ok a) σ')
    (herr : ∀ e σ', D.inv σ' → mid (.error e) σ' → D.Safe t (f e) post σ') :
    D.Safe t (p.tryCatch f) post σ := by
  induction p generalizing σ with
  | ret a => exact fun σ' hr hi' => hok a σ' hi' (h σ' hr hi')
  | raise e => exact herr e σ hi (h σ .refl hi)
  | stmt q k ih =>
    intro σ₁ hr hi₁
    obtain ⟨hpre, hk⟩ := h σ₁ hr hi₁
    exact ⟨hpre, fun r σ₂ hx => ih r (D.exec_inv hi₁ hpre hx) (hk r σ₂ hx)⟩

/-- A statement whose failure is raised, under an assertion `P` the others preserve. -/
theorem Safe.call {q : Q} {wrap : F → E} (hs : D.Stable t P) (hP : P σ)
    {post : Except E (R q) → S → Prop}
    (hpre : ∀ σ₁, D.inv σ₁ → P σ₁ → D.pre t q σ₁)
    (hok : ∀ a σ₁ σ₂, D.inv σ₁ → P σ₁ → M.exec t q σ₁ (.ok a) σ₂ →
      D.Safe t (.ret a) post σ₂)
    (herr : ∀ f σ₁ σ₂, D.inv σ₁ → P σ₁ → M.exec t q σ₁ (.error f) σ₂ →
      D.Safe t (.raise (wrap f)) post σ₂) :
    D.Safe t (Prog.call wrap q) post σ := by
  refine .stmt hs hP fun σ₁ hi hP₁ => ⟨hpre σ₁ hi hP₁, fun r σ₂ hx => ?_⟩
  cases r with
  | ok a => exact hok a σ₁ σ₂ hi hP₁ hx
  | error f => exact herr f σ₁ σ₂ hi hP₁ hx

section Runs

variable [DecidableEq T] {p p' : Pool T S Q R F E A} {goal : T → Except E A → S → Prop}

theorem step_sound (h : M.Step p p') (hi : D.inv p.state)
    (hsafe : ∀ t, D.Safe t (p.threads t) (goal t) p.state) :
    D.inv p'.state ∧ ∀ t, D.Safe t (p'.threads t) (goal t) p'.state := by
  cases h with
  | env he =>
    have hi' := D.env_inv hi he
    exact ⟨hi', fun t => (hsafe t).rely (.single ⟨hi, hi', .inl he⟩)⟩
  | @exec u q k r σ hp hx =>
    have hu := hsafe u
    rw [hp] at hu
    obtain ⟨hpre, hk⟩ := hu _ .refl hi
    have hi' := D.exec_inv hi hpre hx
    refine ⟨hi', fun t => ?_⟩
    by_cases ht : t = u
    · subst ht
      simpa only [Function.update_self] using hk r σ hx
    · simp only [Function.update_of_ne ht]
      exact (hsafe t).rely (.single ⟨hi, hi', .inr ⟨u, q, r, Ne.symm ht, hpre, hx⟩⟩)

/-- If every thread of a pool is safe, the invariant holds in every reachable state
and every thread stays safe. -/
theorem sound (h : M.Reachable p p') (hi : D.inv p.state)
    (hsafe : ∀ t, D.Safe t (p.threads t) (goal t) p.state) :
    D.inv p'.state ∧ ∀ t, D.Safe t (p'.threads t) (goal t) p'.state := by
  induction h with
  | refl => exact ⟨hi, hsafe⟩
  | tail _ hs ih => exact step_sound hs ih.1 ih.2

end Runs

end Discipline

end Concurrency
