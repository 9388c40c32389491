import Mathlib.Data.List.Basic

/-! Histories of events that record the state before and after them. -/

namespace Concurrency

variable {E S : Type}

/-- Every event of the history is accounted for by the events before it. -/
def Logged (Entry : List E → E → Prop) (h : List E) : Prop :=
  ∀ pre e post, h = pre ++ e :: post → Entry pre e

theorem Logged.nil {Entry : List E → E → Prop} : Logged Entry [] := by
  intro pre e post h
  simp at h

theorem Logged.snoc {Entry : List E → E → Prop} {h : List E} {e : E} (hl : Logged Entry h)
    (he : Entry h e) : Logged Entry (h ++ [e]) := by
  intro pre e' post heq
  rcases List.eq_nil_or_concat post with rfl | ⟨post', x, rfl⟩
  · obtain ⟨rfl, hx⟩ := List.append_inj' heq rfl
    cases hx
    exact he
  · have hh : h ++ [e] = (pre ++ e' :: post') ++ [x] := by simpa using heq
    exact hl pre e' post' (List.append_inj' hh rfl).1

section Follows

variable (before after : E → S)

/-- The events lead from one state to the other, each starting where the last one ended. -/
def Follows : S → List E → S → Prop
  | s, [], s' => s = s'
  | s, e :: h, s' => before e = s ∧ Follows (after e) h s'

variable {before after} {s s' : S} {h h' : List E}

theorem follows_append : Follows before after s (h ++ h') s' ↔
    ∃ m, Follows before after s h m ∧ Follows before after m h' s' := by
  induction h generalizing s with
  | nil => simp [Follows]
  | cons e h ih => simp [Follows, ih, and_assoc]

theorem Follows.snoc {e : E} (hf : Follows before after s h s') (he : before e = s') :
    Follows before after s (h ++ [e]) (after e) :=
  follows_append.mpr ⟨s', hf, he, rfl⟩

/-- A preorder that holds across every event holds across the history. -/
theorem Follows.rel {R : S → S → Prop} (hrefl : ∀ s, R s s)
    (htrans : ∀ {a b c}, R a b → R b c → R a c) (hf : Follows before after s h s')
    (hr : ∀ e ∈ h, R (before e) (after e)) : R s s' := by
  induction h generalizing s with
  | nil => exact hf ▸ hrefl s
  | cons e h ih =>
    obtain ⟨rfl, hf⟩ := hf
    exact htrans (hr e List.mem_cons_self) (ih hf fun x hx => hr x (List.mem_cons_of_mem _ hx))

theorem Follows.unchanged (hf : Follows before after s h s')
    (hr : ∀ e ∈ h, after e = before e) : s' = s :=
  (hf.rel (fun _ => rfl) Eq.trans fun e he => (hr e he).symm).symm

/-- The state after an event of a history, and the events that lead on from it. -/
theorem Follows.split {e : E} (hf : Follows before after s (h ++ e :: h') s') :
    Follows before after s h (before e) ∧ Follows before after (after e) h' s' := by
  obtain ⟨m, hm, rfl, he⟩ := follows_append.mp hf
  exact ⟨hm, he⟩

/-- Where each event preserves a property just when it is a good one, the property holds
all along the history just when all its events are good. -/
theorem Follows.all_iff {P : S → Prop} {C : E → Prop} (hf : Follows before after s h s') (hs : P s)
    (he : ∀ e ∈ h, P (before e) → (P (after e) ↔ C e)) :
    (∀ e ∈ h, P (after e)) ↔ ∀ e ∈ h, C e := by
  induction h generalizing s with
  | nil => simp
  | cons e h ih =>
    obtain ⟨rfl, hf⟩ := hf
    have hhead := he e List.mem_cons_self hs
    have htail (ha : P (after e)) := ih hf ha fun x hx => he x (List.mem_cons_of_mem _ hx)
    simp only [List.forall_mem_cons]
    constructor
    · rintro ⟨ha, hr⟩
      exact ⟨hhead.mp ha, (htail ha).mp hr⟩
    · rintro ⟨hc, hr⟩
      exact ⟨hhead.mpr hc, (htail (hhead.mpr hc)).mpr hr⟩

theorem Follows.last (hf : Follows before after s h s') : s' ∈ s :: h.map after := by
  rcases List.eq_nil_or_concat h with rfl | ⟨h, e, rfl⟩
  · exact List.mem_singleton.mpr hf.symm
  · rw [List.concat_eq_append] at hf
    obtain ⟨m, -, -, rfl⟩ := follows_append.mp hf
    exact List.mem_cons_of_mem _ (List.mem_map_of_mem (by simp))

end Follows

theorem filter_split {p : E → Bool} {h l₁ l₂ : List E} {e : E}
    (hf : h.filter p = l₁ ++ e :: l₂) :
    ∃ h₁ h₂, h = h₁ ++ e :: h₂ ∧ h₁.filter p = l₁ ∧ h₂.filter p = l₂ := by
  obtain ⟨a, b, rfl, ha, hb⟩ := List.filter_eq_append_iff.mp hf
  obtain ⟨c, f, rfl, hc, hp, hd⟩ := List.filter_eq_cons_iff.mp hb
  refine ⟨a ++ c, f, by simp, ?_, hd⟩
  rw [List.filter_append, ha, List.filter_eq_nil_iff.mpr hc, List.append_nil]

theorem flatMap_filter {α : Type} {f : E → List α} {p : E → Bool} {l : List E}
    (h : ∀ e ∈ l, p e = false → f e = []) : (l.filter p).flatMap f = l.flatMap f := by
  induction l with
  | nil => rfl
  | cons e l ih =>
    have hl := ih fun x hx => h x (List.mem_cons_of_mem _ hx)
    cases hp : p e with
    | false => simp [hp, hl, h e List.mem_cons_self hp]
    | true => simp [hp, hl]

end Concurrency
