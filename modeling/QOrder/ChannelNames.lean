import Mathlib.Data.Nat.Log
import QOrder.Statements

/-! The names of the Redis channels. Ids are written in hexadecimal groups, so a name
determines its restaurant and its session. -/

namespace QOrder

/-- The last `w` hexadecimal digits of `k`. -/
def hex : Nat → Nat → List Char
  | 0, _ => []
  | w + 1, k => hex w (k / 16) ++ [Nat.digitChar (k % 16)]

/-- The first group of an id below 2^128 has eight digits. -/
def firstDigits (k : Uuid) : Nat := max 8 (Nat.log 16 (k / 2 ^ 96) + 1)

def uuidDigits (k : Uuid) : List Char :=
  hex (firstDigits k) (k / 2 ^ 96) ++ '-' :: (hex 4 (k / 2 ^ 80) ++ '-' :: (hex 4 (k / 2 ^ 64) ++
    '-' :: (hex 4 (k / 2 ^ 48) ++ '-' :: hex 12 k)))

/-- `str(uuid)` -/
def uuidStr (k : Uuid) : String := String.ofList (uuidDigits k)

def kitchenChannel (restaurantId : Uuid) : String := "rt:" ++ uuidStr restaurantId ++ ":kitchen"

def sessionChannel (restaurantId sessionId : Uuid) : String :=
  "rt:" ++ uuidStr restaurantId ++ ":session:" ++ uuidStr sessionId

def Channel.name : Channel → String
  | kitchen restaurantId => kitchenChannel restaurantId
  | session restaurantId sessionId => sessionChannel restaurantId sessionId

theorem length_hex (w k : Nat) : (hex w k).length = w := by
  induction w generalizing k with
  | zero => rfl
  | succ w ih => simp [hex, ih]

theorem digitChar_inj {a b : Nat} (ha : a < 16) (hb : b < 16) (h : Nat.digitChar a = Nat.digitChar b) :
    a = b := by
  have hd : ∀ a < 16, ∀ b < 16, Nat.digitChar a = Nat.digitChar b → a = b := by decide
  exact hd a ha b hb h

theorem hex_inj {w a b : Nat} (h : hex w a = hex w b) : a % 16 ^ w = b % 16 ^ w := by
  induction w generalizing a b with
  | zero => simp [Nat.mod_one]
  | succ w ih =>
    obtain ⟨hhigh, hlow⟩ := List.append_inj' h rfl
    have hdiv := ih hhigh
    have hmod : a % 16 = b % 16 := by
      refine digitChar_inj (Nat.mod_lt _ (by decide)) (Nat.mod_lt _ (by decide)) ?_
      simpa using hlow
    rw [Nat.pow_succ', Nat.mod_mul, Nat.mod_mul, hdiv, hmod]

theorem not_mem_hex {c : Char} (hc : ∀ a < 16, Nat.digitChar a ≠ c) (w k : Nat) : c ∉ hex w k := by
  induction w generalizing k with
  | zero => simp [hex]
  | succ w ih =>
    simp only [hex, List.mem_append, List.mem_singleton, not_or]
    exact ⟨ih _, (hc _ (Nat.mod_lt _ (by decide))).symm⟩

theorem not_mem_uuidDigits {c : Char} (hc : ∀ a < 16, Nat.digitChar a ≠ c) (hd : c ≠ '-') (k : Uuid) :
    c ∉ uuidDigits k := by
  simp [uuidDigits, not_mem_hex hc, hd]

theorem colon_not_mem_uuidDigits (k : Uuid) : ':' ∉ uuidDigits k :=
  not_mem_uuidDigits (by decide) (by decide) k

theorem lt_firstDigits (k : Uuid) : k / 2 ^ 96 < 16 ^ firstDigits k := by
  have hlog := Nat.lt_pow_succ_log_self (b := 16) (by decide) (k / 2 ^ 96)
  exact hlog.trans_le (Nat.pow_le_pow_right (by decide) (le_max_right ..))

theorem group_inj {a b c d w : Nat} (h : a = b) (hc : c / 16 ^ w = a) (hd : d / 16 ^ w = b)
    (hw : hex w c = hex w d) : c = d := by
  rw [← Nat.div_add_mod c (16 ^ w), ← Nat.div_add_mod d (16 ^ w), hc, hd, h, hex_inj hw]

/-- The groups after the first have the same length in every id. -/
theorem uuidDigits_inj {k k' : Uuid} (h : uuidDigits k = uuidDigits k') : k = k' := by
  obtain ⟨h₁, h⟩ := List.append_inj' h (by simp [length_hex])
  have hlen : firstDigits k = firstDigits k' := by
    have hl := congrArg List.length h₁
    rwa [length_hex, length_hex] at hl
  obtain ⟨h₂, h⟩ := List.append_inj (List.cons.inj h).2 (by simp [length_hex])
  obtain ⟨h₃, h⟩ := List.append_inj (List.cons.inj h).2 (by simp [length_hex])
  obtain ⟨h₄, h⟩ := List.append_inj (List.cons.inj h).2 (by simp [length_hex])
  have htop : k / 2 ^ 96 = k' / 2 ^ 96 := by
    rw [hlen] at h₁
    have hm := hex_inj h₁
    have hlt := lt_firstDigits k
    rw [hlen] at hlt
    rwa [Nat.mod_eq_of_lt hlt, Nat.mod_eq_of_lt (lt_firstDigits k')] at hm
  have g₂ := group_inj htop (Nat.div_div_eq_div_mul ..) (Nat.div_div_eq_div_mul ..) h₂
  have g₃ := group_inj g₂ (Nat.div_div_eq_div_mul ..) (Nat.div_div_eq_div_mul ..) h₃
  have g₄ := group_inj g₃ (Nat.div_div_eq_div_mul ..) (Nat.div_div_eq_div_mul ..) h₄
  exact group_inj g₄ rfl rfl (List.cons.inj h).2

/-- A text is cut in one way at a character that the first part does not contain. -/
theorem split_char {c : Char} {a a' b b' : List Char} (ha : c ∉ a) (ha' : c ∉ a')
    (h : a ++ c :: b = a' ++ c :: b') : a = a' ∧ b = b' := by
  have head {a b : List Char} (ha : c ∉ a) : (a ++ c :: b).takeWhile (· ≠ c) = a := by
    have hall : ∀ x ∈ a, decide (x ≠ c) = true := fun x hx => decide_eq_true fun he => ha (he ▸ hx)
    rw [List.takeWhile_append_of_pos hall]
    simp
  have hhead : a = a' := by
    rw [← head (b := b) ha, h, head ha']
  subst hhead
  exact ⟨rfl, (List.cons.inj (List.append_cancel_left h)).2⟩

/-- The name of a channel, split at its restaurant. -/
theorem Channel.name_toList (c : Channel) : ∃ restaurantId rest,
    c.name.toList = "rt:".toList ++ (uuidDigits restaurantId ++ ':' :: rest) ∧
      ((c = .kitchen restaurantId ∧ rest = "kitchen".toList) ∨
        ∃ sessionId, c = .session restaurantId sessionId ∧
          rest = "session:".toList ++ uuidDigits sessionId) := by
  cases c with
  | kitchen r =>
    refine ⟨r, _, ?_, .inl ⟨rfl, rfl⟩⟩
    simp [name, kitchenChannel, uuidStr]
  | session r k =>
    refine ⟨r, _, ?_, .inr ⟨k, rfl, rfl⟩⟩
    simp [name, sessionChannel, uuidStr]

theorem Channel.name_inj {c c' : Channel} (h : c.name = c'.name) : c = c' := by
  obtain ⟨r, rest, hc, hr⟩ := c.name_toList
  obtain ⟨r', rest', hc', hr'⟩ := c'.name_toList
  rw [h, hc'] at hc
  have hsplit := split_char (colon_not_mem_uuidDigits _) (colon_not_mem_uuidDigits _)
    (List.append_cancel_left hc)
  obtain rfl := uuidDigits_inj hsplit.1
  have hrest := hsplit.2
  rcases hr with ⟨rfl, rfl⟩ | ⟨k, rfl, rfl⟩ <;> rcases hr' with ⟨rfl, rfl⟩ | ⟨k', rfl, rfl⟩
  · rfl
  · simp at hrest
  · simp at hrest
  · rw [uuidDigits_inj (List.append_cancel_left hrest)]

end QOrder
