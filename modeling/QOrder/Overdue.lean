import Mathlib.Algebra.Order.BigOperators.GroupWithZero.List
import QOrder.KitchenReplica
import QOrder.Rounding

/-! How late a dish is. The board and the screen divide floats, and yet both give the level of the
exact time that has passed; the screen's clock counts milliseconds. -/

namespace QOrder

open Binary64

def levelOf (ratio : Rat) : Nat :=
  if ratio < 1 then 0
  else if ratio < 3 / 2 then 1
  else if ratio < 2 then 2
  else 3

def computeOverdueLevel (prepTimeSnapshot : Nat) (requestedAt now : Timestamp) : Option Nat :=
  if prepTimeSnapshot = 0 then none
  else
    let elapsedSeconds := nearest (((now - requestedAt : Int) : Rat) / 1000000)
    let elapsedMinutes := nearest (elapsedSeconds / 60)
    let ratio := nearest (elapsedMinutes / prepTimeSnapshot)
    some (levelOf ratio)

/-- `getTime()`, and `Date.now()` of an instant. -/
def jsMillis (t : Timestamp) : Int := t / 1000

namespace KitchenBoard

/-- Every comparison with an undefined number fails. -/
def computeOverdueLevel (prepTime : Option Nat) (requestedAt : Option Timestamp) (now : Timestamp) : Option Nat :=
  if prepTime = some 0 then none
  else
    match prepTime, requestedAt with
    | some prepTime, some requestedAt =>
      let elapsed := nearest (((jsMillis now - jsMillis requestedAt : Int) : Rat) / 60000)
      some (levelOf (nearest (elapsed / prepTime)))
    | _, _ => some 3

def level (i : BoardItem) (now : Timestamp) : Option Nat :=
  computeOverdueLevel i.prepTimeSnapshot i.requestedAt now

end KitchenBoard

/-- The level in exact time, of so many units until the dish is due. -/
def exactLevel (due elapsed : Int) : Nat :=
  if elapsed < due then 0
  else if 2 * elapsed < 3 * due then 1
  else if elapsed < 2 * due then 2
  else 3

/-- Dividing by one number after the other, rounding each quotient. -/
def divide (ds : List Nat) (x : Rat) : Rat := ds.foldl (fun x d => nearest (x / d)) x

section Dividing

variable {ds : List Nat} {x t : Rat} {c d due : Nat} {n : Int}

theorem divide_cons (d : Nat) (ds : List Nat) (x : Rat) : divide (d :: ds) x = divide ds (nearest (x / d)) := rfl

theorem divide_of_nonpos (ds : List Nat) (h : x ≤ 0) : divide ds x ≤ 0 := by
  induction ds generalizing x with
  | nil => exact h
  | cons d ds ih =>
    rw [divide_cons]
    apply ih
    exact nearest_of_nonpos (div_nonpos_of_nonpos_of_nonneg h (Nat.cast_nonneg d))

theorem divide_le (hd : ∀ d ∈ ds, 0 < d) (h : 0 ≤ x) :
    divide ds x ≤ x / (ds.prod : Nat) * (1 + 2 ^ (-53 : Int)) ^ ds.length := by
  induction ds generalizing x with
  | nil => simp [divide]
  | cons d ds ih =>
    have hpos : (0 : Rat) < d := by exact_mod_cast hd d List.mem_cons_self
    have hquot : 0 ≤ x / d := div_nonneg h hpos.le
    have hrest := ih (fun y hy => hd y (List.mem_cons_of_mem d hy)) (nearest_nonneg hquot)
    have hprod : (0 : Rat) ≤ (ds.prod : Nat) := Nat.cast_nonneg _
    have herror : (0 : Rat) ≤ 1 + 2 ^ (-53 : Int) := by norm_num
    have hround := div_le_div_of_nonneg_right (nearest_le_mul hquot) hprod
    rw [divide_cons]
    refine hrest.trans ((mul_le_mul_of_nonneg_right hround (pow_nonneg herror _)).trans_eq ?_)
    rw [List.prod_cons, List.length_cons, pow_succ, Nat.cast_mul]
    generalize ((ds.prod : Nat) : Rat) = due
    field_simp

theorem le_divide (hd : ∀ d ∈ ds, 0 < d) (ht : 0 < t)
    (hr : ∀ suf, suf <:+ ds → Representable (t * (suf.prod : Nat))) (h : t * (ds.prod : Nat) ≤ x) : t ≤ divide ds x := by
  induction ds generalizing x with
  | nil => simpa [divide] using h
  | cons d ds ih =>
    have hpos : (0 : Rat) < d := by exact_mod_cast hd d List.mem_cons_self
    have hrest : ∀ y ∈ ds, 0 < y := fun y hy => hd y (List.mem_cons_of_mem d hy)
    have hprod : (0 : Rat) < (ds.prod : Nat) := Nat.cast_pos.mpr (List.prod_pos hrest)
    have hquot : t * (ds.prod : Nat) ≤ x / d := by
      rw [le_div_iff₀ hpos]
      refine le_trans (le_of_eq ?_) h
      rw [List.prod_cons, Nat.cast_mul]
      ring
    have hlow : 0 < x / d := (mul_pos ht hprod).trans_le hquot
    apply ih hrest fun suf hs => hr suf (hs.trans (List.suffix_cons d ds))
    exact le_nearest (hr ds (List.suffix_cons d ds)) hlow hquot

theorem representable_half (h : c < 2 ^ 53) : Representable ((c : Rat) / 2) :=
  ⟨c, -1, h, by rw [zpow_neg_one]; ring⟩

/-- A relative error of three roundings is less than one unit of so few. -/
theorem error_lt {K : Nat} (hK : 0 < K) (h : 7 * K ≤ 2 ^ 54) :
    ((K : Rat) - 1) * (1 + 2 ^ (-53 : Int)) ^ 3 < K := by
  have hK' : (1 : Rat) ≤ K := by exact_mod_cast hK
  have h' : (7 : Rat) * K ≤ 2 ^ 54 := by exact_mod_cast h
  have herror : (1 + (2 : Rat) ^ (-53 : Int)) ^ 3 ≤ 1 + 7 / 2 ^ 54 := by norm_num
  have hscaled := mul_le_mul_of_nonneg_left herror (sub_nonneg.mpr hK')
  have hone : (7 : Rat) * K / 2 ^ 54 ≤ 1 := (div_le_one₀ (by norm_num)).mpr h'
  have hsplit : ((K : Rat) - 1) * (1 + 7 / 2 ^ 54) = K - 1 + 7 * K / 2 ^ 54 - 7 / 2 ^ 54 := by ring
  have hleft : (0 : Rat) < 7 / 2 ^ 54 := by norm_num
  refine hscaled.trans_lt ?_
  rw [hsplit]
  linarith

/-- No rounding takes the quotient over a threshold, or keeps it below. -/
theorem divide_lt_iff (hd : ∀ d ∈ ds, 0 < d) (hc : 0 < c) (hlen : ds.length ≤ 3) (hdue : ds.prod = due)
    (hsize : 7 * (c * due) ≤ 2 ^ 54) : divide ds n < (c : Rat) / 2 ↔ 2 * n < c * due := by
  have hprod : 0 < due := hdue ▸ List.prod_pos hd
  have hprod' : (0 : Rat) < due := by exact_mod_cast hprod
  have hc' : (0 : Rat) < c := by exact_mod_cast hc
  constructor
  · intro hlt
    by_contra hge
    have hge' : (c : Rat) * due ≤ 2 * n := by exact_mod_cast not_lt.mp hge
    have hle : (c : Rat) / 2 * (ds.prod : Nat) ≤ n := by
      rw [hdue]
      linarith
    refine absurd hlt (not_lt.mpr (le_divide hd (div_pos hc' two_pos) (fun suf hs => ?_) hle))
    obtain ⟨pre, rfl⟩ := hs
    have hpre : 0 < pre.prod := List.prod_pos fun y hy => hd y (List.mem_append_left suf hy)
    have hle : suf.prod ≤ due := by
      rw [← hdue, List.prod_append]
      exact Nat.le_mul_of_pos_left _ hpre
    have hbits : c * suf.prod < 2 ^ 53 := by
      have hmul := Nat.mul_le_mul_left c hle
      omega
    have hhalf := representable_half hbits
    rwa [Nat.cast_mul, mul_div_right_comm] at hhalf
  · intro hlt
    by_cases hn : n ≤ 0
    · have hn' : (n : Rat) ≤ 0 := by exact_mod_cast hn
      exact (divide_of_nonpos ds hn').trans_lt (div_pos hc' two_pos)
    · have hn' : (0 : Rat) ≤ n := by exact_mod_cast (not_le.mp hn).le
      have hbound : (2 : Rat) * n ≤ (c * due : Nat) - 1 := by
        have hnat : 2 * n ≤ (c * due : Nat) - 1 := by
          push_cast
          omega
        exact_mod_cast hnat
      have herror : (1 : Rat) ≤ 1 + 2 ^ (-53 : Int) := by norm_num
      have hpow : (1 + (2 : Rat) ^ (-53 : Int)) ^ ds.length ≤ (1 + 2 ^ (-53 : Int)) ^ 3 :=
        pow_le_pow_right₀ herror hlen
      have hcube : (0 : Rat) ≤ (1 + 2 ^ (-53 : Int)) ^ 3 := pow_nonneg (by norm_num) 3
      have hquot : (0 : Rat) ≤ n / due := div_nonneg hn' hprod'.le
      have hsmall := error_lt (Nat.mul_pos hc hprod) hsize
      have hup := divide_le hd hn'
      rw [hdue] at hup
      refine (hup.trans (mul_le_mul_of_nonneg_left hpow hquot)).trans_lt ?_
      rw [div_mul_eq_mul_div, div_lt_iff₀ hprod']
      have hscaled := mul_le_mul_of_nonneg_right hbound hcube
      push_cast at hscaled hsmall
      generalize (1 + (2 : Rat) ^ (-53 : Int)) ^ 3 = error at hscaled hsmall ⊢
      linarith

/-- The level of the rounded quotient is that of the exact one. -/
theorem levelOf_divide (ds : List Nat) (n : Int) (hd : ∀ d ∈ ds, 0 < d) (hlen : ds.length ≤ 3)
    (hdue : ds.prod = due) (hsize : 28 * due ≤ 2 ^ 54) : levelOf (divide ds n) = exactLevel due n := by
  have hone := divide_lt_iff (n := n) (c := 2) hd (by decide) hlen hdue (by omega)
  have hhalf := divide_lt_iff (n := n) (c := 3) hd (by decide) hlen hdue (by omega)
  have htwo := divide_lt_iff (n := n) (c := 4) hd (by decide) hlen hdue (by omega)
  norm_num at hone hhalf htwo
  have hdouble : 2 * n < 4 * due ↔ n < 2 * due := by omega
  unfold levelOf exactLevel
  simp only [hone, hhalf, htwo, hdouble]

end Dividing

section Levels

variable {prep : Nat} {requestedAt now now' : Timestamp}

theorem exactLevel_mono {due elapsed elapsed' : Int} (h : elapsed ≤ elapsed') :
    exactLevel due elapsed ≤ exactLevel due elapsed' := by
  unfold exactLevel
  split_ifs <;> omega

theorem exactLevel_scale (due elapsed : Int) : exactLevel (1000 * due) (1000 * elapsed) = exactLevel due elapsed := by
  unfold exactLevel
  have hone : 1000 * elapsed < 1000 * due ↔ elapsed < due := by omega
  have hhalf : 2 * (1000 * elapsed) < 3 * (1000 * due) ↔ 2 * elapsed < 3 * due := by omega
  have htwo : 1000 * elapsed < 2 * (1000 * due) ↔ elapsed < 2 * due := by omega
  simp only [hone, hhalf, htwo]

/-- A minute is 60 million microseconds. -/
theorem computeOverdueLevel_eq (hp : 0 < prep) (hmax : prep ≤ 10000000) (requestedAt now : Timestamp) :
    computeOverdueLevel prep requestedAt now = some (exactLevel (60000000 * prep) (now - requestedAt)) := by
  have hdue : [1000000, 60, prep].prod = 60000000 * prep := by
    simp only [List.prod_cons, List.prod_nil]
    ring
  have hlevel := levelOf_divide [1000000, 60, prep] (now - requestedAt) (by simp [hp]) (by simp) hdue (by omega)
  push_cast at hlevel
  rw [computeOverdueLevel, if_neg hp.ne', ← hlevel]
  simp [divide]

theorem KitchenBoard.computeOverdueLevel_eq (hp : 0 < prep) (hmax : prep ≤ 10000000) (requestedAt now : Timestamp) :
    computeOverdueLevel (some prep) (some requestedAt) now =
      some (exactLevel (60000 * prep) (jsMillis now - jsMillis requestedAt)) := by
  have hdue : [60000, prep].prod = 60000 * prep := by
    simp only [List.prod_cons, List.prod_nil]
    ring
  have hlevel := levelOf_divide [60000, prep] (jsMillis now - jsMillis requestedAt) (by simp [hp]) (by simp) hdue
    (by omega)
  push_cast at hlevel
  rw [computeOverdueLevel, if_neg (by simpa using hp.ne'), ← hlevel]
  simp [divide]

/-- The screen's count of milliseconds is off by less than one. -/
theorem jsMillis_sub (requestedAt now : Timestamp) :
    now - 999 - requestedAt ≤ 1000 * (jsMillis now - jsMillis requestedAt) ∧
      1000 * (jsMillis now - jsMillis requestedAt) ≤ now + 999 - requestedAt := by
  unfold jsMillis
  unfold Timestamp at *
  omega

end Levels

/-- The levels of a dish, on the board of the server and on the screen. -/
structure Timely (i : OrderItem) (b : BoardItem) : Prop where
  uncounted : i.prepTimeSnapshot = 0 → ∀ now,
    computeOverdueLevel i.prepTimeSnapshot i.requestedAt now = none ∧ KitchenBoard.level b now = none
  exact : 0 < i.prepTimeSnapshot → ∀ now, computeOverdueLevel i.prepTimeSnapshot i.requestedAt now =
    some (exactLevel (60000000 * i.prepTimeSnapshot) (now - i.requestedAt))
  near : 0 < i.prepTimeSnapshot → ∀ now, ∃ l, KitchenBoard.level b now = some l ∧
    exactLevel (60000000 * i.prepTimeSnapshot) (now - 999 - i.requestedAt) ≤ l ∧
      l ≤ exactLevel (60000000 * i.prepTimeSnapshot) (now + 999 - i.requestedAt)
  onward : ∀ now now' l l', now ≤ now' → KitchenBoard.level b now = some l → KitchenBoard.level b now' = some l' →
    l ≤ l'

section Screens

variable {i : OrderItem} {b : BoardItem} {items : KitchenBoard.Replica} {d : Data} {restaurantId : Uuid}

theorem timely_of_shown (hmax : i.prepTimeSnapshot ≤ 10000000) (h : b.shown = i.boardItem.shown) : Timely i b := by
  have hlevel (now : Timestamp) : KitchenBoard.level b now =
      KitchenBoard.computeOverdueLevel (some i.prepTimeSnapshot) (some i.requestedAt) now := by
    simp only [BoardItem.shown, OrderItem.boardItem, Prod.mk.injEq] at h
    rw [KitchenBoard.level, h.2.2.2.1, h.2.2.2.2]
  have hdue (now : Timestamp) :
      exactLevel (60000 * i.prepTimeSnapshot) (jsMillis now - jsMillis i.requestedAt) =
        exactLevel (60000000 * i.prepTimeSnapshot) (1000 * (jsMillis now - jsMillis i.requestedAt)) := by
    rw [← exactLevel_scale]
    congr 1
    ring
  refine ⟨fun hz now => ?_, fun hp now => computeOverdueLevel_eq hp hmax _ _, fun hp now => ?_, ?_⟩
  · rw [hlevel, hz]
    exact ⟨rfl, rfl⟩
  · obtain ⟨hlow, hhigh⟩ := jsMillis_sub i.requestedAt now
    refine ⟨_, (hlevel now).trans (KitchenBoard.computeOverdueLevel_eq hp hmax _ _), ?_, ?_⟩
    · rw [hdue]
      exact exactLevel_mono hlow
    · rw [hdue]
      exact exactLevel_mono hhigh
  · intro now now' l l' hle hl hl'
    rw [hlevel] at hl hl'
    by_cases hz : i.prepTimeSnapshot = 0
    · rw [hz] at hl
      cases hl
    · have hp := Nat.pos_of_ne_zero hz
      rw [KitchenBoard.computeOverdueLevel_eq hp hmax] at hl hl'
      cases hl
      cases hl'
      apply exactLevel_mono
      have hmillis : jsMillis now ≤ jsMillis now' := Int.ediv_le_ediv (by decide) hle
      omega

/-- On a screen that shows the board, the level of a dish is the one of the exact time, to a millisecond,
and never falls. -/
theorem screen_levels (ha : KitchenBoard.Agrees items d restaurantId) :
    ∀ i ∈ Kitchen.getKitchenBoard d restaurantId, i.prepTimeSnapshot ≤ 10000000 →
      ∃ b ∈ items, b.id = i.id ∧ Timely i b := by
  intro i hi hmax
  have hshown : i.boardItem.shown ∈ items.map BoardItem.shown := by
    rw [ha.shown.mem_iff, KitchenBoard.loadBoard, List.map_map]
    exact List.mem_map_of_mem hi
  obtain ⟨b, hb, hs⟩ := List.mem_map.mp hshown
  exact ⟨b, hb, KitchenBoard.shown_id hs, timely_of_shown hmax hs⟩

/-- The café's screen, with one dish on it. -/
theorem screen_levels_cafe : (Kitchen.getKitchenBoard cafeOrdered.data 1).length = 1 ∧
    ∀ i ∈ Kitchen.getKitchenBoard cafeOrdered.data 1, ∃ b ∈ KitchenBoard.loadBoard cafeOrdered.data 1,
      b.id = i.id ∧ Timely i b := by
  have hmax : ∀ i ∈ Kitchen.getKitchenBoard cafeOrdered.data 1, i.prepTimeSnapshot ≤ 10000000 := by
    decide +kernel
  have hshown : KitchenBoard.Agrees (KitchenBoard.loadBoard cafeOrdered.data 1) cafeOrdered.data 1 :=
    KitchenBoard.agrees_loadBoard cafeOrdered.ok.itemIds
  exact ⟨by decide +kernel, fun i hi => screen_levels hshown i hi (hmax i hi)⟩

end Screens

end QOrder
