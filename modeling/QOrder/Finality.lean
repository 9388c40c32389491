import QOrder.Interleaving

/-! What a program may do at all, whatever its statements answer, and the errors that are
left to it once it has executed a statement of a given kind. -/

namespace Concurrency

variable {T S Q : Type} {R : Q → Type} {F E α β : Type}

namespace Prog

/-- Every statement of the program satisfies `P`, and every error it raises `C`. -/
def Keeps (P : Q → Prop) (C : E → Prop) : Prog Q R F E α → Prop
  | ret _ => True
  | raise e => C e
  | stmt q k => P q ∧ ∀ r, (k r).Keeps P C

/-- After a statement that satisfies `P` the program raises only errors of `C`. -/
def Final (P : Q → Prop) (C : E → Prop) : Prog Q R F E α → Prop
  | ret _ => True
  | raise _ => True
  | stmt q k => (P q → ∀ r, (k r).Keeps (fun _ => True) C) ∧ ∀ r, (k r).Final P C

variable {P : Q → Prop} {C C' : E → Prop} {p : Prog Q R F E α} {f : α → Prog Q R F E β}

theorem Keeps.mono {P' : Q → Prop} (h : p.Keeps P C) (hP : ∀ q, P q → P' q) : p.Keeps P' C := by
  induction p with
  | ret a => trivial
  | raise e => exact h
  | stmt q k ih => exact ⟨hP q h.1, fun r => ih r (h.2 r)⟩

theorem Keeps.bind (h : p.Keeps P C) (hf : ∀ a, (f a).Keeps P C) : (p >>= f).Keeps P C := by
  induction p with
  | ret a => exact hf a
  | raise e => exact h
  | stmt q k ih => exact ⟨h.1, fun r => ih r (h.2 r)⟩

theorem Keeps.tryCatch {g : E → Prog Q R F E α} (h : p.Keeps P C) (hg : ∀ e, C e → (g e).Keeps P C') :
    (p.tryCatch g).Keeps P C' := by
  induction p with
  | ret a => trivial
  | raise e => exact hg e h
  | stmt q k ih => exact ⟨h.1, fun r => ih r (h.2 r)⟩

theorem Keeps.call {wrap : F → E} {q : Q} (hq : P q) (hw : ∀ e, C (wrap e)) :
    (call wrap q : Prog Q R F E (R q)).Keeps P C := by
  refine ⟨hq, fun r => ?_⟩
  cases r with
  | ok a => trivial
  | error e => exact hw e

theorem Keeps.final (h : p.Keeps (fun _ => True) C) : p.Final P C := by
  induction p with
  | ret a => trivial
  | raise e => trivial
  | stmt q k ih => exact ⟨fun _ => h.2, fun r => ih r (h.2 r)⟩

/-- A program that executes no such statement at first. -/
theorem Final.bind (h : p.Keeps (fun q => ¬ P q) fun _ => True) (hf : ∀ a, (f a).Final P C) :
    (p >>= f).Final P C := by
  induction p with
  | ret a => exact hf a
  | raise e => trivial
  | stmt q k ih => exact ⟨fun hq => absurd hq h.1, fun r => ih r (h.2 r)⟩

/-- A program that executes no such statement at last. -/
theorem Final.andThen (h : p.Final P C) (hf : ∀ a, (f a).Keeps (fun q => ¬ P q) C) :
    (p >>= f).Final P C := by
  have weaken {γ : Type} {r : Prog Q R F E γ} (hr : r.Keeps (fun q => ¬ P q) C) :
      r.Keeps (fun _ => True) C := by
    induction r with
    | ret a => trivial
    | raise e => exact hr
    | stmt q k ih => exact ⟨trivial, fun r => ih r (hr.2 r)⟩
  induction p with
  | ret a => exact (weaken (hf a)).final
  | raise e => trivial
  | stmt q k ih => exact ⟨fun hq r => (h.1 hq r).bind fun a => weaken (hf a), fun r => ih r (h.2 r)⟩

theorem Final.tryCatch {g : E → E} (h : p.Final P C) (hg : ∀ e, C e → C (g e)) :
    (p.tryCatch fun e => raise (g e)).Final P C := by
  induction p with
  | ret a => trivial
  | raise e => trivial
  | stmt q k ih =>
    refine ⟨fun hq r => ?_, fun r => ih r (h.2 r)⟩
    exact (h.1 hq r).tryCatch fun e he => hg e he

end Prog

end Concurrency
