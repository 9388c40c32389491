import Mathlib.Algebra.BigOperators.Group.List.Basic
import Mathlib.Data.List.Induction
import QOrder.Trace

/-! Runs of a labelled step relation, and logs of events that it explains: every event
leaves the abstract state alone or is one labelled step of it. -/

namespace Refinement

open Concurrency

variable {S L E D A : Type} {Step : S → L → S → Prop} {s s' : S} {ls : List L} {l : L}

inductive Run (Step : S → L → S → Prop) (s : S) : List L → S → Prop
  | nil : Run Step s [] s
  | snoc {ls : List L} {m s' : S} {l : L} (hr : Run Step s ls m) (hs : Step m l s') :
      Run Step s (ls ++ [l]) s'

theorem Run.preserves {P : S → Prop} (hP : ∀ s l s', Step s l s' → P s → P s')
    (hr : Run Step s ls s') (hs : P s) : P s' := by
  induction hr with
  | nil => exact hs
  | snoc _ hst ih => exact hP _ _ _ hst ih

/-- What each step adds to a quantity, a run adds up. -/
theorem Run.sum [AddMonoid A] {f : S → A} {w : L → A}
    (hw : ∀ s l s', Step s l s' → f s' = f s + w l) (hr : Run Step s ls s') :
    f s' = f s + (ls.map w).sum := by
  induction hr with
  | nil => simp
  | @snoc ls m s' l _ hst ih =>
    have hlast := hw m l s' hst
    rw [hlast, ih, List.map_append, List.sum_append, add_assoc]
    simp

/-- A property that fails at first and holds in the end begins to hold at some step. -/
theorem Run.begins {P : S → Prop} (hr : Run Step s ls s') (hs : ¬ P s) (hs' : P s') :
    ∃ pre l post m m', ls = pre ++ l :: post ∧ Run Step s pre m ∧ ¬ P m ∧ Step m l m' ∧ P m' ∧
      Run Step m' post s' := by
  induction hr with
  | nil => exact absurd hs' hs
  | @snoc ls m s' l hr hst ih =>
    by_cases hm : P m
    · obtain ⟨pre, k, post, a, b, rfl, hpre, ha, hk, hb, hpost⟩ := ih hm
      exact ⟨pre, k, post ++ [l], a, b, by simp, hpre, ha, hk, hb, hpost.snoc hst⟩
    · exact ⟨ls, l, [], m, s', rfl, hr, hm, hst, hs', .nil⟩

/-- The labels of a log: an event is silent, or `By` whose label it is one step. -/
inductive Explained (Step : S → L → S → Prop) (before after : E → S) (By : E → L → Prop) :
    List E → List L → Prop
  | nil : Explained Step before after By [] []
  | silent {es : List E} {ls : List L} {e : E} (h : Explained Step before after By es ls)
      (hs : after e = before e) : Explained Step before after By (es ++ [e]) ls
  | acts {es : List E} {ls : List L} {e : E} {l : L} (h : Explained Step before after By es ls)
      (hb : By e l) (hs : Step (before e) l (after e)) :
      Explained Step before after By (es ++ [e]) (ls ++ [l])

section Logs

variable {before after : E → S} {By : E → L → Prop} {es : List E}

theorem exists_explained (h : ∀ e ∈ es, after e = before e ∨
    ∃ l, By e l ∧ Step (before e) l (after e)) : ∃ ls, Explained Step before after By es ls := by
  induction es using List.reverseRecOn with
  | nil => exact ⟨[], .nil⟩
  | append_singleton es e ih =>
    obtain ⟨ls, hls⟩ := ih fun x hx => h x (by simp [hx])
    rcases h e (by simp) with hs | ⟨l, hb, hs⟩
    · exact ⟨ls, hls.silent hs⟩
    · exact ⟨ls ++ [l], hls.acts hb hs⟩

/-- An explained log is a run of the abstract system. -/
theorem Explained.run {b a : E → D} {abs : D → S} {d d' : D}
    (h : Explained Step (fun e => abs (b e)) (fun e => abs (a e)) By es ls)
    (hf : Follows b a d es d') : Run Step (abs d) ls (abs d') := by
  induction h generalizing d' with
  | nil =>
    cases hf
    exact .nil
  | silent _ hs ih =>
    obtain ⟨m, hm, rfl, rfl⟩ := follows_append.mp hf
    rw [hs]
    exact ih hm
  | acts _ _ hs ih =>
    obtain ⟨m, hm, rfl, rfl⟩ := follows_append.mp hf
    exact (ih hm).snoc hs

end Logs

end Refinement
