import Mathlib.Algebra.Order.Field.Power
import Mathlib.Algebra.Order.Field.Rat
import Mathlib.Tactic.FieldSimp
import Mathlib.Tactic.Linarith
import Mathlib.Tactic.Positivity
import Mathlib.Tactic.Ring
import ScriptLang.Number.Decimal
import ScriptLang.Proofs.Scanning

/-!
# The nearest float

A ratio is rounded in whole numbers: it is scaled by a power of two until its whole part has as many
bits as a significand, and then rounded to a whole number. Here ratios are read as rational numbers,
and the main result says what the rounding comes to: every number in the interval that belongs to a
float is rounded to that float. The interval is narrower below a power of two, where rounding goes
through a significand of 54 bits.
-/

namespace ScriptLang.Number

variable {den m num : Nat}

theorem pow2_eq (n : Nat) : pow2 n = 2 ^ n := rfl

/-! ## Ratios as rational numbers -/

theorem scaleRatio_pos (num : Nat) (hden : 0 < den) (k : Int) : 0 < (scaleRatio num den k).2 := by
  cases k with
  | ofNat n => exact hden
  | negSucc n => exact Nat.mul_pos hden (Nat.two_pow_pos _)

theorem scaleRatio_eq (num : Nat) (hden : 0 < den) (k : Int) :
    ((scaleRatio num den k).1 : ℚ) / (scaleRatio num den k).2 = num / den * 2 ^ k := by
  have hd : (den : ℚ) ≠ 0 := by positivity
  cases k with
  | ofNat n =>
    simp only [scaleRatio, pow2_eq, Int.ofNat_eq_natCast, zpow_natCast]
    push_cast
    ring
  | negSucc n =>
    simp only [scaleRatio, pow2_eq, zpow_negSucc]
    push_cast
    field_simp

theorem scaleRatio_lt_iff (num den c : Nat) (k : Int) :
    (scaleRatio num den k).1 < c * (scaleRatio num den k).2 ↔ (num : ℚ) * 2 ^ k < c * den := by
  cases k with
  | ofNat n =>
    rw [scaleRatio, Int.ofNat_eq_natCast, zpow_natCast]
    exact_mod_cast Iff.rfl
  | negSucc n =>
    rw [scaleRatio, zpow_negSucc, ← div_eq_mul_inv, div_lt_iff₀ (by positivity), mul_assoc]
    exact_mod_cast Iff.rfl

theorem gridRatio_pos (num : Nat) (hden : 0 < den) (k : Int) : 0 < (gridRatio num den k).2 := by
  cases k with
  | ofNat n => exact Nat.mul_pos hden (Nat.pow_pos (by decide))
  | negSucc n => exact hden

theorem gridRatio_eq (num : Nat) (hden : 0 < den) (k : Int) :
    ((gridRatio num den k).1 : ℚ) / (gridRatio num den k).2 = num / den / 10 ^ k := by
  have hd : (den : ℚ) ≠ 0 := by positivity
  cases k with
  | ofNat n =>
    simp only [gridRatio, pow10, Nat.pow_eq, Int.ofNat_eq_natCast, zpow_natCast]
    push_cast
    field_simp
  | negSucc n =>
    simp only [gridRatio, pow10, Nat.pow_eq, zpow_negSucc]
    push_cast
    field_simp

/-- A ratio of whole numbers is rounded to a whole number that is at most a half away, to an even
one where it is just a half. -/
theorem roundHalfEven_eq (hden : 0 < den) (hlow : (m : ℚ) - 1 / 2 ≤ num / den)
    (hhigh : (num : ℚ) / den ≤ m + 1 / 2)
    (htie : m % 2 = 1 → (m : ℚ) - 1 / 2 < num / den ∧ (num : ℚ) / den < m + 1 / 2) :
    roundHalfEven num den = m := by
  have hd : (0 : ℚ) < den := by positivity
  -- the bounds in whole numbers
  have hlow' : 2 * m * den ≤ 2 * num + den := by
    rw [le_div_iff₀ hd] at hlow
    have : (2 * m * den : ℚ) ≤ 2 * num + den := by linarith
    exact_mod_cast this
  have hhigh' : 2 * num ≤ 2 * m * den + den := by
    rw [div_le_iff₀ hd] at hhigh
    have : (2 * num : ℚ) ≤ 2 * m * den + den := by linarith
    exact_mod_cast this
  have htie' : m % 2 = 1 → 2 * m * den < 2 * num + den ∧ 2 * num < 2 * m * den + den := by
    intro hodd
    obtain ⟨h₁, h₂⟩ := htie hodd
    rw [lt_div_iff₀ hd] at h₁
    rw [div_lt_iff₀ hd] at h₂
    constructor
    · have : (2 * m * den : ℚ) < 2 * num + den := by linarith
      exact_mod_cast this
    · have : (2 * num : ℚ) < 2 * m * den + den := by linarith
      exact_mod_cast this
  have hsplit := Nat.div_add_mod num den
  have hrest := Nat.mod_lt num hden
  unfold roundHalfEven
  dsimp only
  generalize num / den = k at hsplit ⊢
  generalize num % den = r at hsplit hrest ⊢
  -- the whole part is the number or the one below it
  have hk : k = m ∨ k + 1 = m := by
    have h₁ : 2 * k * den < (2 * m + 2) * den := by nlinarith
    have h₂ : (2 * m) * den < (2 * k + 3) * den := by nlinarith
    have h₁' := Nat.lt_of_mul_lt_mul_right h₁
    have h₂' := Nat.lt_of_mul_lt_mul_right h₂
    omega
  rcases hk with rfl | rfl
  · have hr : 2 * r ≤ den := by nlinarith
    have hr' : k % 2 = 1 → 2 * r < den := by
      intro hodd
      have := (htie' hodd).2
      nlinarith
    split
    · rfl
    · split
      · omega
      · split
        · rfl
        · next heven => simp at heven; omega
  · have hr : den ≤ 2 * r := by nlinarith
    have hr' : (k + 1) % 2 = 1 → den < 2 * r := by
      intro hodd
      have := (htie' hodd).1
      nlinarith
    split
    · omega
    · split
      · rfl
      · split
        · next heven => simp at heven; omega
        · rfl

/-! ## Rounding to the nearest float -/

/-- The exponent of the greatest power of two that is not above a number is the only one between
whose powers the number lies. -/
theorem exponent_unique {v : ℚ} {a b : ℤ} (ha : (2 : ℚ) ^ a ≤ v) (ha' : v < 2 ^ (a + 1))
    (hb : (2 : ℚ) ^ b ≤ v) (hb' : v < 2 ^ (b + 1)) : a = b := by
  have h₁ : a < b + 1 := (zpow_lt_zpow_iff_right₀ (one_lt_two (α := ℚ))).1 (ha.trans_lt hb')
  have h₂ : b < a + 1 := (zpow_lt_zpow_iff_right₀ (one_lt_two (α := ℚ))).1 (hb.trans_lt ha')
  omega

/-- The first guess at the binary exponent of a ratio is off by one at most. -/
theorem binaryExponent_guess (hnum : 0 < num) (hden : 0 < den) {e₀ : Int}
    (he₀ : e₀ = (Nat.log2 num : Int) - Nat.log2 den) :
    (2 : ℚ) ^ (e₀ - 1) ≤ num / den ∧ (num : ℚ) / den < 2 ^ (e₀ + 1) := by
  have hd : (0 : ℚ) < den := by positivity
  have hnum₁ : (2 : ℚ) ^ Nat.log2 num ≤ num := by exact_mod_cast Nat.log2_self_le hnum.ne'
  have hnum₂ : (num : ℚ) < 2 ^ (Nat.log2 num + 1) := by exact_mod_cast Nat.lt_log2_self
  have hden₁ : (2 : ℚ) ^ Nat.log2 den ≤ den := by exact_mod_cast Nat.log2_self_le hden.ne'
  have hden₂ : (den : ℚ) < 2 ^ (Nat.log2 den + 1) := by exact_mod_cast Nat.lt_log2_self
  have hpow (k : ℤ) : (2 : ℚ) ^ (e₀ + k) * 2 ^ Nat.log2 den = 2 ^ Nat.log2 num * 2 ^ k := by
    rw [he₀, ← zpow_natCast (2 : ℚ) (Nat.log2 den), ← zpow_natCast (2 : ℚ) (Nat.log2 num),
      ← zpow_add₀ two_ne_zero, ← zpow_add₀ two_ne_zero]
    congr 1
    ring
  constructor
  · rw [le_div_iff₀ hd]
    have h := hpow (-1)
    rw [zpow_neg_one] at h
    have hpos : (0 : ℚ) < 2 ^ (e₀ - 1) := by positivity
    calc (2 : ℚ) ^ (e₀ - 1) * den ≤ 2 ^ (e₀ - 1) * 2 ^ (Nat.log2 den + 1) := by gcongr
      _ = 2 ^ (e₀ + -1) * 2 ^ Nat.log2 den * 2 := by rw [pow_succ, sub_eq_add_neg]; ring
      _ = 2 ^ Nat.log2 num := by rw [h]; ring
      _ ≤ num := hnum₁
  · rw [div_lt_iff₀ hd]
    have h := hpow 1
    rw [zpow_one] at h
    calc (num : ℚ) < 2 ^ (Nat.log2 num + 1) := hnum₂
      _ = 2 ^ (e₀ + 1) * 2 ^ Nat.log2 den := by rw [h, pow_succ]
      _ ≤ 2 ^ (e₀ + 1) * den := by gcongr

/-- The power of two that a ratio is scaled by before it is rounded. -/
theorem binaryExponent (hnum : 0 < num) (hden : 0 < den) {e₀ e : Int}
    (he₀ : e₀ = (Nat.log2 num : Int) - Nat.log2 den)
    (he : e = if (scaleRatio num den (-e₀)).1 < (scaleRatio num den (-e₀)).2 then e₀ - 1 else e₀) :
    (2 : ℚ) ^ e ≤ num / den ∧ (num : ℚ) / den < 2 ^ (e + 1) := by
  have hd : (0 : ℚ) < den := by positivity
  obtain ⟨hlow, hhigh⟩ := binaryExponent_guess hnum hden he₀
  have hguess : (scaleRatio num den (-e₀)).1 < (scaleRatio num den (-e₀)).2 ↔
      (num : ℚ) / den < 2 ^ e₀ := by
    have h := scaleRatio_lt_iff num den 1 (-e₀)
    rw [Nat.one_mul] at h
    rw [h, zpow_neg, ← div_eq_mul_inv, div_lt_iff₀ (by positivity), div_lt_iff₀ hd, Nat.cast_one,
      one_mul, mul_comm]
  split at he
  · next hless =>
    subst he
    exact ⟨hlow, by rwa [sub_add_cancel, ← hguess]⟩
  · next hmore =>
    subst he
    exact ⟨not_lt.1 fun h => hmore (hguess.2 h), hhigh⟩

/-- The form in which finite floats come apart: the significand has 53 bits unless the exponent is
the least one. -/
structure Normal (m : Nat) (q : Int) : Prop where
  bits : m < 2 ^ 53
  least : -1074 ≤ q
  greatest : q ≤ 971
  full : 2 ^ 52 ≤ m ∨ q = -1074

/-- The float with a significand and an exponent. -/
def ofParts (neg : Bool) (m : Nat) (q : Int) : Float :=
  if m < 2 ^ 52 then assemble neg 0 m else assemble neg (q + 1075).toNat (m - 2 ^ 52)

/-- The share of the gap to the float below that belongs to a float: the gap below a power of two is
only half as wide as the one above it. -/
def lowerShare (m : Nat) (q : Int) : ℚ :=
  if m = 2 ^ 52 ∧ -1074 < q then 1 / 4 else 1 / 2

/-- The numbers that are nearest to a float, which has the ends of the interval to itself where its
significand is even. -/
structure Near (m : Nat) (q : Int) (v : ℚ) : Prop where
  low : (m - lowerShare m q) * 2 ^ q ≤ v
  high : v ≤ (m + 1 / 2) * 2 ^ q
  odd : m % 2 = 1 → (m - lowerShare m q) * 2 ^ q < v ∧ v < (m + 1 / 2) * 2 ^ q

theorem lowerShare_cases (m : Nat) (q : Int) :
    (m = 2 ^ 52 ∧ -1074 < q ∧ lowerShare m q = 1 / 4) ∨
      ((m ≠ 2 ^ 52 ∨ q ≤ -1074) ∧ lowerShare m q = 1 / 2) := by
  unfold lowerShare
  split
  · next h => exact .inl ⟨h.1, h.2, rfl⟩
  · next h => exact .inr ⟨by omega, rfl⟩

/-- The last step of rounding: the float of a rounded significand. -/
theorem ofParts_of_rounded (neg : Bool) {r : Nat} {q p : Int} (hn : Normal m q)
    (h : (r = m ∧ p = q) ∨ (r = 2 ^ 53 ∧ m = 2 ^ 52 ∧ p = q - 1)) :
    (if (if r == pow2 53 then pow2 52 else r) < pow2 52 then
        assemble neg 0 (if r == pow2 53 then pow2 52 else r)
      else if 2047 ≤ ((if r == pow2 53 then p + 1 else p) + 1075).toNat then infinity neg
      else assemble neg ((if r == pow2 53 then p + 1 else p) + 1075).toNat
        ((if r == pow2 53 then pow2 52 else r) - pow2 52)) = ofParts neg m q := by
  obtain ⟨hbits, hleast, hgreatest, hfull⟩ := hn
  simp only [pow2_eq, beq_iff_eq, ofParts]
  rcases h with ⟨rfl, rfl⟩ | ⟨rfl, rfl, rfl⟩
  · rw [if_neg hbits.ne, if_neg hbits.ne]
    split
    · rfl
    · rw [if_neg (by omega)]
  · have hq : q - 1 + 1 = q := by ring
    simp only [if_true, hq, lt_self_iff_false, if_false]
    rw [if_neg (by omega)]

theorem lowerShare_le (m : Nat) (q : Int) : lowerShare m q ≤ 1 / 2 := by
  rcases lowerShare_cases m q with ⟨-, -, h⟩ | ⟨-, h⟩ <;> rw [h]
  norm_num

/-- The exponent that a number near a float is rounded with is that of the float, or the one below
it where the number is just below a power of two. -/
theorem rounding_exponent {q e p : Int} {v : ℚ} (hn : Normal m q) (hv : Near m q v)
    (he : (2 : ℚ) ^ e ≤ v) (he' : v < 2 ^ (e + 1)) (hp : max (e - 52) (-1074) = p) :
    p = q ∨ (m = 2 ^ 52 ∧ -1074 < q ∧ p = q - 1 ∧ v < 2 ^ (52 + q)) := by
  obtain ⟨hbits, hleast, hgreatest, hfull⟩ := hn
  have hpow : (0 : ℚ) < 2 ^ q := by positivity
  have hsplit (k : ℤ) : (2 : ℚ) ^ (k + q) = 2 ^ k * 2 ^ q := zpow_add₀ two_ne_zero k q
  have hm : (m : ℚ) ≤ 2 ^ 53 - 1 := by
    have : m + 1 ≤ 2 ^ 53 := hbits
    have : (m : ℚ) + 1 ≤ 2 ^ 53 := by exact_mod_cast this
    linarith
  have hbelow : v < 2 ^ (53 + q) := by
    rw [hsplit]
    refine hv.high.trans_lt (mul_lt_mul_of_pos_right ?_ hpow)
    norm_num
    linarith
  by_cases hlarge : (2 : ℚ) ^ (52 + q) ≤ v
  · have heq : e = 52 + q :=
      exponent_unique he he' hlarge (by rwa [show 52 + q + 1 = 53 + q by ring])
    left
    omega
  · have hsmall : v < 2 ^ (52 + q) := not_le.1 hlarge
    have hless : e < 52 + q := (zpow_lt_zpow_iff_right₀ (one_lt_two (α := ℚ))).1
      (he.trans_lt hsmall)
    by_cases hq : q = -1074
    · left
      omega
    · -- then the significand is full, and the number can only be below it at a power of two
      have hm₂ : 2 ^ 52 ≤ m := hfull.resolve_right hq
      rcases lowerShare_cases m q with ⟨hm₃, hq', hshare⟩ | ⟨hm₃, hshare⟩
      · right
        have hlow := hv.low
        rw [hshare, hm₃] at hlow
        have hfrom : (2 : ℚ) ^ (51 + q) ≤ v := by
          refine le_trans ?_ hlow
          rw [hsplit]
          gcongr
          norm_num
        have heq : e = 51 + q :=
          exponent_unique he he' hfrom (by rwa [show 51 + q + 1 = 52 + q by ring])
        exact ⟨hm₃, hq', by omega, hsmall⟩
      · exfalso
        have hm₄ : 2 ^ 52 + 1 ≤ m := by omega
        have hm₅ : (2 : ℚ) ^ 52 + 1 ≤ m := by exact_mod_cast hm₄
        have hlow := hv.low
        rw [hshare] at hlow
        refine hlarge (le_trans ?_ hlow)
        rw [hsplit]
        gcongr
        norm_num
        linarith

theorem ofRatio_eq (neg : Bool) {q : Int} (hn : Normal m q) (hm : 0 < m)
    (hden : 0 < den) (hv : Near m q (num / den)) : ofRatio neg num den = ofParts neg m q := by
  have hpow (k : ℤ) : (0 : ℚ) < 2 ^ k := by positivity
  have hm₁ : (1 : ℚ) ≤ m := by exact_mod_cast hm
  have hshare : (0 : ℚ) < m - lowerShare m q := by
    rcases lowerShare_cases m q with ⟨-, -, h⟩ | ⟨-, h⟩ <;> rw [h] <;> linarith
  have hvpos : (0 : ℚ) < num / den := (mul_pos hshare (hpow q)).trans_le hv.low
  have hnum : 0 < num := by
    rcases Nat.eq_zero_or_pos num with rfl | h
    · simp at hvpos
    · exact h
  unfold ofRatio
  rw [if_neg (by simp; omega)]
  dsimp only
  obtain ⟨he, he'⟩ := binaryExponent hnum hden rfl rfl
  generalize (if (scaleRatio num den (-((Nat.log2 num : Int) - (Nat.log2 den : Int)))).1 <
    (scaleRatio num den (-((Nat.log2 num : Int) - (Nat.log2 den : Int)))).2 then
      (Nat.log2 num : Int) - (Nat.log2 den : Int) - 1
    else (Nat.log2 num : Int) - (Nat.log2 den : Int)) = e at he he' ⊢
  generalize hp : max (e - 52) (-1074) = p
  apply ofParts_of_rounded neg hn
  have hscaled := scaleRatio_eq num hden (-p)
  have hpositive := scaleRatio_pos num hden (-p)
  generalize (scaleRatio num den (-p)).1 = n at hscaled ⊢
  generalize (scaleRatio num den (-p)).2 = d at hscaled hpositive ⊢
  rw [zpow_neg, ← div_eq_mul_inv] at hscaled
  rcases rounding_exponent hn hv he he' hp with rfl | ⟨rfl, hq, rfl, hbelow⟩
  · -- the significand is what the scaled number is nearest to
    left
    refine ⟨roundHalfEven_eq hpositive ?_ ?_ ?_, rfl⟩
    · rw [hscaled, le_div_iff₀ (hpow p)]
      have hle : ((m : ℚ) - 1 / 2) * 2 ^ p ≤ (m - lowerShare m p) * 2 ^ p := by
        gcongr
        exact lowerShare_le m p
      exact hle.trans hv.low
    · rw [hscaled, div_le_iff₀ (hpow p)]
      exact hv.high
    · intro hodd
      rw [hscaled, lt_div_iff₀ (hpow p), div_lt_iff₀ (hpow p)]
      refine ⟨lt_of_le_of_lt ?_ (hv.odd hodd).1, (hv.odd hodd).2⟩
      gcongr
      exact lowerShare_le m p
  · -- just below a power of two the next finer grid is used, and rounding carries over
    right
    refine ⟨roundHalfEven_eq hpositive ?_ ?_ ?_, rfl, rfl⟩
    · rw [hscaled, le_div_iff₀ (hpow (q - 1)), zpow_sub_one₀ two_ne_zero]
      have hlow := hv.low
      rw [lowerShare, if_pos ⟨rfl, hq⟩] at hlow
      push_cast at hlow ⊢
      linarith
    · rw [hscaled, div_le_iff₀ (hpow (q - 1)), zpow_sub_one₀ two_ne_zero]
      have : (0 : ℚ) < 2 ^ q := hpow q
      rw [zpow_add₀ two_ne_zero] at hbelow
      norm_num at hbelow ⊢
      linarith
    · intro hodd
      norm_num at hodd

end ScriptLang.Number
