import Mathlib.Logic.Function.Basic

/-! Programs over a signature of statements. A statement answers or fails, a
program returns or raises, and the state the statements act on is kept outside. Two logics
say what a program does: one follows the events that its statements record, the other
assumes something of their answers. -/

namespace Concurrency

inductive Prog (Q : Type) (R : Q → Type) (F E α : Type)
  | ret (a : α)
  | raise (e : E)
  | stmt (q : Q) (k : Except F (R q) → Prog Q R F E α)

namespace Prog

variable {Q : Type} {R : Q → Type} {F E α β S : Type}

def bind : Prog Q R F E α → (α → Prog Q R F E β) → Prog Q R F E β
  | ret a, f => f a
  | raise e, _ => raise e
  | stmt q k, f => stmt q (fun r => (k r).bind f)

def tryCatch : Prog Q R F E α → (E → Prog Q R F E α) → Prog Q R F E α
  | ret a, _ => ret a
  | raise e, h => h e
  | stmt q k, h => stmt q (fun r => (k r).tryCatch h)

instance : Monad (Prog Q R F E) where
  pure := ret
  bind := bind

instance : MonadExceptOf E (Prog Q R F E) where
  throw := raise
  tryCatch := tryCatch

/-- Executes one statement; a failure is raised. -/
def call (wrap : F → E) (q : Q) : Prog Q R F E (R q) :=
  stmt q fun
    | .ok a => ret a
    | .error f => raise (wrap f)

/-- Executes one statement and hands its failure to the program. -/
def attempt (q : Q) : Prog Q R F E (Except F (R q)) := stmt q ret

@[simp] theorem pure_def (a : α) : (pure a : Prog Q R F E α) = ret a := rfl

@[simp] theorem throw_def (e : E) : (throw e : Prog Q R F E α) = raise e := rfl

@[simp] theorem ret_bind (a : α) (f : α → Prog Q R F E β) : (ret a >>= f) = f a := rfl

@[simp] theorem raise_bind (e : E) (f : α → Prog Q R F E β) :
    ((raise e : Prog Q R F E α) >>= f) = raise e := rfl

@[simp] theorem stmt_bind (q : Q) (k : Except F (R q) → Prog Q R F E α)
    (f : α → Prog Q R F E β) : (stmt q k >>= f) = stmt q (fun r => k r >>= f) := rfl

theorem bind_ret (p : Prog Q R F E α) : p.bind ret = p := by
  induction p with
  | ret a => rfl
  | raise e => rfl
  | stmt q k ih => exact congrArg (stmt q) (funext ih)

theorem bind_bind {γ : Type} (p : Prog Q R F E α) (f : α → Prog Q R F E β)
    (g : β → Prog Q R F E γ) : (p.bind f).bind g = p.bind fun a => (f a).bind g := by
  induction p with
  | ret a => rfl
  | raise e => rfl
  | stmt q k ih => exact congrArg (stmt q) (funext ih)

instance : LawfulMonad (Prog Q R F E) := .mk' _ bind_ret (fun _ _ => rfl) bind_bind

/-- What a program that has ended answers. -/
def answer : Prog Q R F E α → Option (Except E α)
  | ret a => some (.ok a)
  | raise e => some (.error e)
  | stmt _ _ => none

theorem answer_ok {p : Prog Q R F E α} {a : α} (h : p.answer = some (.ok a)) : p = ret a := by
  cases p <;> simp_all [answer]

theorem answer_error {p : Prog Q R F E α} {e : E} (h : p.answer = some (.error e)) :
    p = raise e := by
  cases p <;> simp_all [answer]

/-- Runs a program alone, by a function that answers each statement. -/
def run (step : (q : Q) → S → Except F (R q) × S) : Prog Q R F E α → S → Except E α × S
  | ret a, σ => (.ok a, σ)
  | raise e, σ => (.error e, σ)
  | stmt q k, σ => (k (step q σ).1).run step (step q σ).2

end Prog

section Events

variable {Q : Type} {R : Q → Type} {F E V α β : Type}

/-- `Next` says which answers a statement may get after the events so far, and how they are
recorded. `I` holds before every statement of the program, and `post` at its end. -/
def Along (Next : List V → (q : Q) → Except F (R q) → V → Prop) (I : List V → Q → Prop) :
    Prog Q R F E α → (Except E α → List V → Prop) → List V → Prop
  | .ret a, post, l => post (.ok a) l
  | .raise e, post, l => post (.error e) l
  | .stmt q k, post, l => I l q ∧ ∀ r v, Next l q r v → Along Next I (k r) post (l ++ [v])

namespace Along

variable {Next : List V → (q : Q) → Except F (R q) → V → Prop} {I : List V → Q → Prop}
  {l : List V}

theorem mono {p : Prog Q R F E α} {post post' : Except E α → List V → Prop}
    (h : Along Next I p post l) (hp : ∀ r l', post r l' → post' r l') : Along Next I p post' l := by
  induction p generalizing l with
  | ret a => exact hp _ _ h
  | raise e => exact hp _ _ h
  | stmt q k ih => exact ⟨h.1, fun r v hn => ih r (h.2 r v hn)⟩

theorem bind {p : Prog Q R F E α} {f : α → Prog Q R F E β} {mid : Except E α → List V → Prop}
    {post : Except E β → List V → Prop} (h : Along Next I p mid l)
    (hok : ∀ a l', mid (.ok a) l' → Along Next I (f a) post l')
    (herr : ∀ e l', mid (.error e) l' → post (.error e) l') :
    Along Next I (p >>= f) post l := by
  induction p generalizing l with
  | ret a => exact hok a l h
  | raise e => exact herr e l h
  | stmt q k ih => exact ⟨h.1, fun r v hn => ih r (h.2 r v hn)⟩

theorem tryCatch {p : Prog Q R F E α} {f : E → Prog Q R F E α}
    {mid post : Except E α → List V → Prop} (h : Along Next I p mid l)
    (hok : ∀ a l', mid (.ok a) l' → post (.ok a) l')
    (herr : ∀ e l', mid (.error e) l' → Along Next I (f e) post l') :
    Along Next I (p.tryCatch f) post l := by
  induction p generalizing l with
  | ret a => exact hok a l h
  | raise e => exact herr e l h
  | stmt q k ih => exact ⟨h.1, fun r v hn => ih r (h.2 r v hn)⟩

/-- A statement whose failure is raised. -/
theorem call {q : Q} {wrap : F → E} {f : R q → Prog Q R F E β} {post : Except E β → List V → Prop}
    (hi : I l q) (hok : ∀ a v, Next l q (.ok a) v → Along Next I (f a) post (l ++ [v]))
    (herr : ∀ e v, Next l q (.error e) v → post (.error (wrap e)) (l ++ [v])) :
    Along Next I (Prog.call wrap q >>= f) post l := by
  refine ⟨hi, fun r v hn => ?_⟩
  cases r with
  | ok a => exact hok a v hn
  | error e => exact herr e v hn

theorem attempt {q : Q} {f : Except F (R q) → Prog Q R F E β} {post : Except E β → List V → Prop}
    (hi : I l q) (h : ∀ r v, Next l q r v → Along Next I (f r) post (l ++ [v])) :
    Along Next I (Prog.attempt q >>= f) post l :=
  ⟨hi, h⟩

end Along

end Events

section Answers

variable {Q S : Type} {R : Q → Type} {F E α β : Type}

namespace Prog

/-- As long as the answers satisfy `ans`, the statements satisfy `pre` and the result `post`. -/
def Guarded (pre : Q → Prop) (ans : (q : Q) → Except F (R q) → Prop) :
    Prog Q R F E α → (α → Prop) → Prop
  | ret a, post => post a
  | raise _, _ => True
  | stmt q k, post => pre q ∧ ∀ r, ans q r → (k r).Guarded pre ans post

namespace Guarded

variable {pre : Q → Prop} {ans : (q : Q) → Except F (R q) → Prop} {p : Prog Q R F E α}
  {post post' : α → Prop}

theorem mono (h : p.Guarded pre ans post) (hp : ∀ a, post a → post' a) :
    p.Guarded pre ans post' := by
  induction p with
  | ret a => exact hp a h
  | raise e => trivial
  | stmt q k ih => exact ⟨h.1, fun r hr => ih r (h.2 r hr)⟩

theorem weaken {pre' : Q → Prop} (h : p.Guarded pre ans post) (hp : ∀ q, pre q → pre' q) :
    p.Guarded pre' ans post := by
  induction p with
  | ret a => exact h
  | raise e => trivial
  | stmt q k ih => exact ⟨hp q h.1, fun r hr => ih r (h.2 r hr)⟩

theorem bind {f : α → Prog Q R F E β} {goal : β → Prop} (h : p.Guarded pre ans post)
    (hf : ∀ a, post a → (f a).Guarded pre ans goal) : (p >>= f).Guarded pre ans goal := by
  induction p with
  | ret a => exact hf a h
  | raise e => trivial
  | stmt q k ih => exact ⟨h.1, fun r hr => ih r (h.2 r hr)⟩

theorem tryCatch {g : E → Prog Q R F E α} (h : p.Guarded pre ans post)
    (hg : ∀ e, (g e).Guarded pre ans post) : (p.tryCatch g).Guarded pre ans post := by
  induction p with
  | ret a => exact h
  | raise e => exact hg e
  | stmt q k ih => exact ⟨h.1, fun r hr => ih r (h.2 r hr)⟩

theorem call {q : Q} {wrap : F → E} {goal : R q → Prop} (hq : pre q)
    (h : ∀ a, ans q (.ok a) → goal a) :
    (call wrap q : Prog Q R F E (R q)).Guarded pre ans goal := by
  refine ⟨hq, fun r hr => ?_⟩
  cases r with
  | ok a => exact h a hr
  | error e => trivial

/-- Two runs from states that are alike get the same answers and end in states that are
alike. `C` says how far the first run may come. -/
theorem alike (step : (q : Q) → S → Except F (R q) × S) {A : S → S → Prop} {C : S → Prop}
    (hback : ∀ q σ, C (step q σ).2 → C σ)
    (hstep : ∀ q σ τ, pre q → C (step q σ).2 → A σ τ → ans q (step q σ).1 ∧
      (step q τ).1 = (step q σ).1 ∧ A (step q σ).2 (step q τ).2)
    (h : p.Guarded pre ans post) {σ τ : S} (hC : C (p.run step σ).2) (ha : A σ τ) :
    (p.run step τ).1 = (p.run step σ).1 ∧ A (p.run step σ).2 (p.run step τ).2 := by
  have back {p : Prog Q R F E α} {σ : S} (hC : C (p.run step σ).2) : C σ := by
    induction p generalizing σ with
    | ret a => exact hC
    | raise e => exact hC
    | stmt q k ih => exact hback _ _ (ih _ hC)
  induction p generalizing σ τ with
  | ret a => exact ⟨rfl, ha⟩
  | raise e => exact ⟨rfl, ha⟩
  | stmt q k ih =>
    obtain ⟨hans, heq, ha'⟩ := hstep _ _ _ h.1 (back hC) ha
    have hi := ih (step q σ).1 (h.2 _ hans) hC ha'
    simp only [run, heq]
    exact hi

end Guarded

end Prog

end Answers

end Concurrency
