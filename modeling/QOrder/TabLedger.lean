import Mathlib.Algebra.BigOperators.Group.List.Basic
import Mathlib.Algebra.Group.Basic
import QOrder.Refinement

/-! A ledger of tabs. A tab runs at a place, collects charges, and is settled at the amount
that is due; a charge is waiting, delivered or void. What is due is kept as a running sum. -/

namespace TabLedger

open Refinement

variable {Place Tab Line Amount : Type}

inductive Phase (Amount : Type)
  | running | dropped
  | settled (amount : Amount)

inductive Mark
  | waiting | delivered | void
  deriving DecidableEq

structure Account (Place Amount : Type) where
  place : Place
  phase : Phase Amount
  due : Amount

structure Charge (Tab Amount : Type) where
  tab : Tab
  amount : Amount
  mark : Mark

@[ext] structure Ledger (Place Tab Line Amount : Type) where
  accounts : Tab → Option (Account Place Amount)
  charges : Line → Option (Charge Tab Amount)

inductive Action (Place Tab Line Amount : Type)
  | openTab (t : Tab) (p : Place)
  | order (t : Tab) (lines : Line → Option Amount)
  | deliver (l : Line) (t : Tab) (x : Amount)
  | takeBack (l : Line) (t : Tab) (x : Amount)
  | void (l : Line)
  | settle (t : Tab)
  | drop (t : Tab)
  | resume (t : Tab)

/-- No tab runs at the place. -/
def Ledger.Vacant (g : Ledger Place Tab Line Amount) (p : Place) : Prop :=
  ∀ t a, g.accounts t = some a → a.place = p → a.phase ≠ .running

section Steps

variable [DecidableEq Tab] [DecidableEq Line] [AddGroup Amount]

/-- Strikes out what still waits on the tab. -/
def Charge.strike (t : Tab) (c : Charge Tab Amount) : Charge Tab Amount :=
  if c.tab = t ∧ c.mark = .waiting then { c with mark := .void } else c

/-- Strikes out what waits on the tab, except for the late lines. -/
def Ledger.strike (g : Ledger Place Tab Line Amount) (t : Tab) (late : List Line) (l : Line) :
    Option (Charge Tab Amount) :=
  if l ∈ late then g.charges l else (g.charges l).map (Charge.strike t)

/-- What the ledger allows. Nothing here asks that a tab still runs when its charges move, or that
whoever ends it has noticed its last lines. -/
inductive Step (g : Ledger Place Tab Line Amount) :
    Action Place Tab Line Amount → Ledger Place Tab Line Amount → Prop
  | openTab {t : Tab} {p : Place} (hn : g.accounts t = none) (hv : g.Vacant p) :
      Step g (.openTab t p) ⟨Function.update g.accounts t (some ⟨p, .running, 0⟩), g.charges⟩
  | order {t : Tab} {a : Account Place Amount} {lines : Line → Option Amount}
      (ha : g.accounts t = some a) (hn : ∀ l x, lines l = some x → g.charges l = none) :
      Step g (.order t lines)
        ⟨g.accounts, fun l => ((lines l).map fun x => ⟨t, x, .waiting⟩).or (g.charges l)⟩
  | deliver {l : Line} {t : Tab} {x : Amount} {a : Account Place Amount}
      (ha : g.accounts t = some a) (hl : g.charges l = some ⟨t, x, .waiting⟩) :
      Step g (.deliver l t x)
        ⟨Function.update g.accounts t (some { a with due := a.due + x }),
          Function.update g.charges l (some ⟨t, x, .delivered⟩)⟩
  | takeBack {l : Line} {t : Tab} {x : Amount} {a : Account Place Amount}
      (ha : g.accounts t = some a) (hl : g.charges l = some ⟨t, x, .delivered⟩) :
      Step g (.takeBack l t x)
        ⟨Function.update g.accounts t (some { a with due := a.due - x }),
          Function.update g.charges l (some ⟨t, x, .waiting⟩)⟩
  | void {l : Line} {t : Tab} {x : Amount} (hl : g.charges l = some ⟨t, x, .waiting⟩) :
      Step g (.void l) ⟨g.accounts, Function.update g.charges l (some ⟨t, x, .void⟩)⟩
  | settle {t : Tab} {a : Account Place Amount} (late : List Line) (ha : g.accounts t = some a)
      (hp : ∀ x, a.phase ≠ .settled x) :
      Step g (.settle t)
        ⟨Function.update g.accounts t (some { a with phase := .settled a.due }), g.strike t late⟩
  | drop {t : Tab} {a : Account Place Amount} (late : List Line) (ha : g.accounts t = some a)
      (hp : a.phase = .running) :
      Step g (.drop t)
        ⟨Function.update g.accounts t (some { a with phase := .dropped }), g.strike t late⟩
  | resume {t : Tab} {a : Account Place Amount} (ha : g.accounts t = some a) (hp : a.phase = .dropped)
      (hv : g.Vacant a.place) :
      Step g (.resume t)
        ⟨Function.update g.accounts t (some { a with phase := .running }), g.charges⟩

/-- What an action adds to the amount due on the tab. -/
def Action.moves (t : Tab) : Action Place Tab Line Amount → Amount
  | .deliver _ t' x => if t' = t then x else 0
  | .takeBack _ t' x => if t' = t then -x else 0
  | _ => 0

def Ledger.due (g : Ledger Place Tab Line Amount) (t : Tab) : Amount :=
  ((g.accounts t).map Account.due).getD 0

def Ledger.Waits (g : Ledger Place Tab Line Amount) (t : Tab) (l : Line) : Prop :=
  ∃ x, g.charges l = some ⟨t, x, .waiting⟩

/-- The tab goes out of use. -/
def Ledger.Ends (g g' : Ledger Place Tab Line Amount) (t : Tab) : Prop :=
  ∃ a a', g.accounts t = some a ∧ g'.accounts t = some a' ∧ a'.phase ≠ a.phase ∧ a'.phase ≠ .running

def Ledger.SettledAt (g : Ledger Place Tab Line Amount) (t : Tab) (x : Amount) : Prop :=
  ∃ a, g.accounts t = some a ∧ a.phase = .settled x

variable {g g' : Ledger Place Tab Line Amount} {t : Tab} {x : Amount} {a : Account Place Amount}
  {ls : List (Action Place Tab Line Amount)} {c : Action Place Tab Line Amount}

omit [DecidableEq Line] in
theorem due_update {charges : Line → Option (Charge Tab Amount)} (t' : Tab) :
    (Ledger.due ⟨Function.update g.accounts t (some a), charges⟩ t' : Amount) =
      if t = t' then a.due else g.due t' := by
  by_cases h : t = t'
  · subst h
    simp [Ledger.due]
  · have hne : t' ≠ t := fun h' => h h'.symm
    simp [Ledger.due, h, hne]

omit [DecidableEq Tab] [DecidableEq Line] in
theorem due_of_account (h : g.accounts t = some a) : g.due t = a.due := by
  simp [Ledger.due, h]

theorem Step.due (h : Step g c g') (t : Tab) : g'.due t = g.due t + c.moves t := by
  cases h with
  | @openTab t' p hn hv =>
    rw [due_update]
    by_cases ht : t' = t
    · subst ht
      simp [Action.moves, Ledger.due, hn]
    · simp [Action.moves, ht]
  | order ha hn => simp [Action.moves, Ledger.due]
  | @deliver l t' x a ha hl =>
    rw [due_update]
    by_cases ht : t' = t
    · subst ht
      simp [Action.moves, due_of_account ha]
    · simp [Action.moves, ht]
  | @takeBack l t' x a ha hl =>
    rw [due_update]
    by_cases ht : t' = t
    · subst ht
      simp [Action.moves, due_of_account ha, sub_eq_add_neg]
    · simp [Action.moves, ht]
  | void hl => simp [Action.moves, Ledger.due]
  | @settle t' a late ha hp | @drop t' a late ha hp | @resume t' a ha hp hv =>
    rw [due_update]
    by_cases ht : t' = t
    · subst ht
      simp [Action.moves, due_of_account ha]
    · simp [Action.moves, ht]

theorem due_run (hr : Run Step g ls g') (t : Tab) : g'.due t = g.due t + (ls.map (Action.moves t)).sum :=
  hr.sum (f := fun g => g.due t) fun _ _ _ hs => hs.due t

/-- The phase of a tab changes only by its own actions, and it is settled at what is due. -/
theorem Step.account (h : Step g c g') (ha : g.accounts t = some a) : ∃ a', g'.accounts t = some a' ∧
    (a'.phase = a.phase ∨ (∀ x, a.phase ≠ .settled x) ∧
      ∀ x, a'.phase = .settled x → c = .settle t ∧ a'.due = x) := by
  have other {t' : Tab} {b : Account Place Amount} (hne : t ≠ t') :
      Function.update g.accounts t' (some b) t = some a := by simp [hne, ha]
  cases h with
  | @openTab t' p hn hv =>
    have hne : t ≠ t' := by
      rintro rfl
      rw [hn] at ha
      cases ha
    exact ⟨a, other hne, .inl rfl⟩
  | order hb hn => exact ⟨a, ha, .inl rfl⟩
  | void hl => exact ⟨a, ha, .inl rfl⟩
  | @deliver l t' x b hb hl | @takeBack l t' x b hb hl =>
    by_cases hne : t = t'
    · subst hne
      obtain rfl : a = b := Option.some.inj (ha.symm.trans hb)
      exact ⟨_, Function.update_self .., .inl rfl⟩
    · exact ⟨a, other hne, .inl rfl⟩
  | @settle t' b late hb hp =>
    by_cases hne : t = t'
    · subst hne
      obtain rfl : a = b := Option.some.inj (ha.symm.trans hb)
      refine ⟨_, Function.update_self .., .inr ⟨hp, fun x hx => ⟨rfl, ?_⟩⟩⟩
      exact Phase.settled.inj hx
    · exact ⟨a, other hne, .inl rfl⟩
  | @drop t' b late hb hp | @resume t' b hb hp hv =>
    by_cases hne : t = t'
    · subst hne
      obtain rfl : a = b := Option.some.inj (ha.symm.trans hb)
      refine ⟨_, Function.update_self .., .inr ⟨fun x hx => ?_, fun x hx => ?_⟩⟩
      · rw [hp] at hx
        cases hx
      · cases hx
    · exact ⟨a, other hne, .inl rfl⟩

theorem Step.opened (h : Step g c g') (hn : g.accounts t = none) (ha : g'.accounts t = some a) :
    a.phase = .running := by
  have fresh {t' : Tab} {b b' : Account Place Amount} (hb : g.accounts t' = some b)
      (hu : Function.update g.accounts t' (some b') t = some a) : a.phase = .running := by
    by_cases hne : t = t'
    · subst hne
      rw [hn] at hb
      cases hb
    · rw [Function.update_of_ne hne, hn] at hu
      cases hu
  cases h with
  | @openTab t' p hn' hv =>
    by_cases hne : t = t'
    · subst hne
      have hu : Function.update g.accounts t (some ⟨p, .running, 0⟩) t = some a := ha
      rw [Function.update_self] at hu
      cases hu
      rfl
    · have hu : Function.update g.accounts t' (some ⟨p, .running, 0⟩) t = some a := ha
      rw [Function.update_of_ne hne, hn] at hu
      cases hu
  | order hb hl => rw [hn] at ha; cases ha
  | void hl => rw [hn] at ha; cases ha
  | deliver hb hl | takeBack hb hl => exact fresh hb ha
  | settle late hb hp | drop late hb hp => exact fresh hb ha
  | resume hb hp hv => exact fresh hb ha

theorem Step.settledAt (h : Step g c g') (hs : g.SettledAt t x) : g'.SettledAt t x := by
  obtain ⟨a, ha, hp⟩ := hs
  obtain ⟨a', ha', hk | ⟨hn, -⟩⟩ := h.account ha
  · exact ⟨a', ha', hk.trans hp⟩
  · exact absurd hp (hn x)

theorem Step.settles (h : Step g c g') (hn : ¬ ∃ x, g.SettledAt t x) (hs : g'.SettledAt t x) :
    c = .settle t ∧ g'.due t = x := by
  obtain ⟨b, hb, hp⟩ := hs
  cases ha : g.accounts t with
  | none =>
    rw [h.opened ha hb] at hp
    cases hp
  | some a =>
    obtain ⟨a', ha', hk | ⟨-, hx⟩⟩ := h.account ha
    · obtain rfl : b = a' := Option.some.inj (hb.symm.trans ha')
      exact absurd ⟨x, a, ha, hk.symm.trans hp⟩ hn
    · obtain rfl : b = a' := Option.some.inj (hb.symm.trans ha')
      obtain ⟨hc, hd⟩ := hx x hp
      exact ⟨hc, (due_of_account hb).trans hd⟩

/-- What is due on a settled tab is what it was settled at and what has moved since. -/
theorem settled_run (hr : Run Step g ls g') (hn : ¬ ∃ x, g.SettledAt t x) (hs : g'.SettledAt t x) :
    ∃ pre post, ls = pre ++ .settle t :: post ∧
      g'.due t = x + (post.map (Action.moves t)).sum := by
  obtain ⟨pre, c, post, m, m', rfl, -, hm, hst, ⟨y, hy⟩, hpost⟩ :=
    hr.begins (P := fun g => ∃ x, g.SettledAt t x) hn ⟨x, hs⟩
  obtain ⟨rfl, hd⟩ := hst.settles hm hy
  have hlast : g'.SettledAt t y :=
    hpost.preserves (P := fun g => g.SettledAt t y) (fun _ _ _ hst hs => hst.settledAt hs) hy
  obtain ⟨a, ha, hp⟩ := hs
  obtain ⟨b, hb, hq⟩ := hlast
  obtain rfl : a = b := Option.some.inj (ha.symm.trans hb)
  have hxy : x = y := Phase.settled.inj (hp.symm.trans hq)
  refine ⟨pre, post, rfl, ?_⟩
  rw [due_run hpost t, hd, hxy]

end Steps

end TabLedger
