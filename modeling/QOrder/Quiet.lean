import QOrder.Alone

/-! One client alone at the database. No statement is aborted and nobody edits the catalog;
time passes. -/

namespace QOrder

open Concurrency

def quiet : Machine (Fin 1) (Sys 1) Stmt Stmt.Resp DbError where
  exec t q σ r σ' := r = (σ.perform t q).1 ∧ σ' = (σ.perform t q).2
  env σ σ' := ∃ clock appClock, σ.clock ≤ clock ∧ σ' = { σ with clock, appClock }

theorem quiet_alone {α : Type} (σ : Sys 1) (a : Action α) :
    ∃ p : Pool (Fin 1) (Sys 1) Stmt Stmt.Resp DbError Exn α, quiet.Reachable ⟨σ, fun _ => a⟩ p ∧
      p.state = (σ.alone a).2 ∧ (p.threads 0).answer = some (σ.alone a).1 := by
  have hrun := Machine.reachable_run (M := quiet) (t := (0 : Fin 1)) (fun _ _ => ⟨rfl, rfl⟩) a σ fun _ => a
  rw [Function.update_eq_self] at hrun
  refine ⟨_, hrun, rfl, ?_⟩
  simp only [Function.update_self, Sys.alone]
  cases (a.run (fun q τ => Sys.perform τ 0 q) σ).1 with
  | ok a => rfl
  | error e => rfl

/-- Alone, a client keeps to no discipline. -/
def solitude : Discipline quiet where
  inv _ := True
  pre _ _ _ := True
  exec_inv _ _ _ := trivial
  env_inv _ _ := trivial

namespace Quiet

variable {α β : Type} {P P' : Sys 1 → Prop} {σ : Sys 1} {post : Except Exn β → Sys 1 → Prop}

/-- The clocks make no difference. -/
def Timeless (P : Sys 1 → Prop) : Prop := ∀ σ clock appClock, P σ → P { σ with clock, appClock }

theorem Timeless.stable (h : Timeless P) : solitude.Stable 0 P := by
  rintro σ σ' ⟨-, -, he | ⟨u, q, r, hu, -⟩⟩ hP
  · obtain ⟨clock, appClock, -, rfl⟩ := he
    exact h σ clock appClock hP
  · exact absurd (Subsingleton.elim u 0) hu

/-- The program runs from every state that satisfies `P`, and ends in `post`. -/
def Does (P : Sys 1 → Prop) (a : Action β) (post : Except Exn β → Sys 1 → Prop) : Prop :=
  ∀ σ, P σ → solitude.Safe 0 a post σ

theorem Does.ret {b : β} (h : Timeless P) (hpost : ∀ σ, P σ → post (.ok b) σ) : Does P (.ret b) post :=
  fun _ hP => .ret h.stable hP fun σ' _ => hpost σ'

theorem Does.raise {e : Exn} (h : Timeless P) (hpost : ∀ σ, P σ → post (.error e) σ) :
    Does P (.raise e) post :=
  fun _ hP => .raise h.stable hP fun σ' _ => hpost σ'

theorem Does.bind {a : Action α} {f : α → Action β} {mid : α → Sys 1 → Prop}
    (h : Does P a fun r σ => ∃ x, r = .ok x ∧ mid x σ) (hf : ∀ x, Does (mid x) (f x) post) :
    Does P (a >>= f) post := by
  intro σ hP
  refine .bind trivial (h σ hP) ?_ ?_
  · rintro x σ' - ⟨y, hy, hm⟩
    cases hy
    exact hf x σ' hm
  · rintro e σ' - ⟨y, hy, -⟩
    cases hy

theorem Does.mono {post' : Except Exn β → Sys 1 → Prop} {a : Action β} (h : Does P a post)
    (hpost : ∀ r σ, post r σ → post' r σ) : Does P a post' :=
  fun σ hP => (h σ hP).mono fun r σ _ => hpost r σ

theorem Does.seq {a : Action α} {b : Action β} {Q : Sys 1 → Prop} (h : Does P a fun _ => Q)
    (hb : Does Q b fun _ => Q) : Does P (a >>= fun _ => b) fun _ => Q := by
  intro σ hP
  refine .bind trivial (h σ hP) ?_ ?_
  · intro x σ' _ hQ
    exact hb σ' hQ
  · intro e σ' _ hQ
    exact hQ

/-- Nothing is raised that a handler would catch. -/
theorem Does.tryCatch {a : Action β} {f : Exn → Action β} {mid : β → Sys 1 → Prop}
    (h : Does P a fun r σ => ∃ x, r = .ok x ∧ mid x σ) :
    Does P (a.tryCatch f) fun r σ => ∃ x, r = .ok x ∧ mid x σ := by
  intro σ hP
  refine .tryCatch trivial (h σ hP) ?_ ?_
  · intro x σ' _ hm
    exact hm
  · rintro e σ' - ⟨y, hy, -⟩
    cases hy

/-- A statement that goes through. -/
theorem Does.stmt {q : Stmt} {mid : q.Resp → Sys 1 → Prop} (h : Timeless P) (hm : ∀ a, Timeless (mid a))
    (hq : ∀ σ, P σ → ∃ a, (σ.perform 0 q).1 = .ok a ∧ mid a (σ.perform 0 q).2) :
    Does P (Prog.call Exn.db q) fun r σ => ∃ a, r = .ok a ∧ mid a σ := by
  intro σ hP
  refine .stmt h.stable hP fun σ₁ _ hP₁ => ⟨trivial, ?_⟩
  rintro r σ₂ ⟨rfl, rfl⟩
  obtain ⟨a, ha, hs⟩ := hq σ₁ hP₁
  rw [ha]
  exact .ret (hm a).stable hs fun σ' _ hs' => ⟨a, rfl, hs'⟩

theorem Does.command {c : Command} {mid : Data → Sys 1 → Prop} (h : Timeless P)
    (hm : ∀ rows, Timeless (mid rows)) (hv : ∀ ctx d, c.violation ctx d = none)
    (hc : ∀ σ, P σ → mid (σ.rows 0 c) (σ.record 0 (.command c) (.ok (σ.rows 0 c)) (σ.write 0 c))) :
    Does P (Action.command c) fun r σ => ∃ rows, r = .ok rows ∧ mid rows σ := by
  refine .stmt h hm fun σ hP => ?_
  have hp : σ.perform 0 (.command c) =
      (.ok (σ.rows 0 c), σ.record 0 (.command c) (.ok (σ.rows 0 c)) (σ.write 0 c)) := by
    simp only [Sys.perform, Sys.answer, hv]
  rw [hp]
  exact ⟨_, rfl, hc σ hP⟩

/-- What a program that has ended has reached. -/
theorem Does.reached {a : Action β} (h : Does P a post) {σ₀ : Sys 1} (h₀ : P σ₀)
    {p : Pool (Fin 1) (Sys 1) Stmt Stmt.Resp DbError Exn β}
    (hr : quiet.Reachable ⟨σ₀, fun _ => a⟩ p) {r : Except Exn β} (ha : (p.threads 0).answer = some r) :
    post r p.state := by
  have hstart : ∀ t : Fin 1, solitude.Safe t a ((fun _ => post) t) σ₀ := fun t => by
    rw [Subsingleton.elim t 0]
    exact h σ₀ h₀
  have hsafe := (Discipline.sound hr trivial hstart).2 0
  cases r with
  | ok b =>
    rw [Prog.answer_ok ha] at hsafe
    exact hsafe _ .refl trivial
  | error e =>
    rw [Prog.answer_error ha] at hsafe
    exact hsafe _ .refl trivial

end Quiet

end QOrder
