import ScriptLang.Format.Json
import ScriptLang.Proofs.ShortestDigits
import ScriptLang.Proofs.Words

/-!
# Numbers and their texts

A float is written as a numeral: digits, places after a point, and an exponent. A numeral reads as
the float nearest to the number it stands for, so the text of a float reads as that float
(`readFloat_written`). In a document a number ends where the numeral ends, whatever follows, as long
as it could not go on with the numeral.
-/

namespace ScriptLang.Number

open ScriptLang.Text

variable {c : Char} {e q : Int} {rest : List Char} {m : Nat}

/-! ## Digits -/

/-- The number that the characters of decimal digits stand for. -/
abbrev digitsValue (cs : List Char) : Nat := Nat.ofDigitChars 10 cs 0

/-- The values of decimal digits. -/
abbrev digitValues (cs : List Char) : List Nat := cs.map fun c => c.toNat - 48

theorem ofDigits_eq (cs : List Char) : ofDigits (digitValues cs) = digitsValue cs := by
  rw [digitsValue, Nat.ofDigitChars_eq_foldl, ofDigits, List.foldl_map]
  rfl

theorem digitsValue_append (cs ds : List Char) :
    digitsValue (cs ++ ds) = 10 ^ ds.length * digitsValue cs + digitsValue ds := by
  rw [digitsValue, Nat.ofDigitChars_append, Nat.ofDigitChars_eq_ofDigitChars_zero]

theorem digitsValue_zeros (n : Nat) : digitsValue (List.replicate n '0') = 0 := by
  rw [digitsValue, Nat.ofDigitChars_replicate_zero, Nat.mul_zero]

theorem digitsValue_digits (n : Nat) : digitsValue (digits n) = n :=
  Nat.ofDigitChars_ten_toDigits

theorem isDigit_of_mem_digits {n : Nat} (h : c ∈ digits n) : c.isDigit = true :=
  Nat.isDigit_of_mem_toDigits (by decide) (by decide) h

theorem head_digits {n : Nat} (hn : 0 < n) : (digits n).head? ≠ some '0' := by
  induction n using Nat.strongRecOn with
  | ind n ih =>
    rw [digits, Nat.toDigits_eq_if (by decide)]
    split
    · next hsmall =>
      intro h
      rw [List.head?_cons, Option.some.injEq] at h
      interval_cases n <;> simp_all [Nat.digitChar]
    · next hlarge =>
      have hne : (Nat.toDigits 10 (n / 10)) ≠ [] := Nat.toDigits_ne_nil
      rw [List.head?_append_of_ne_nil _ hne]
      exact ih (n / 10) (by omega) (by omega)

/-- Digits are read up to a character that is neither a digit nor stands between digits. -/
theorem readDigits_append {ds : List Char} (hds : ∀ c ∈ ds, c.isDigit = true)
    (hrest : ∀ c ∈ rest.head?, decimalValue c = none ∧ c ≠ '_') (after : Bool) :
    readDigits after (ds ++ rest) = (digitValues ds, rest) := by
  induction ds generalizing after with
  | nil =>
    cases rest with
    | nil => rfl
    | cons c cs =>
      obtain ⟨hvalue, hmark⟩ := hrest c rfl
      rw [List.nil_append, readDigits, hvalue]
      simp [hmark]
  | cons c cs ih =>
    rw [List.forall_mem_cons] at hds
    rw [List.cons_append, readDigits, decimalValue_of_decimal hds.1, ih hds.2]
    rfl

theorem wholeText?_eq (n : Int) :
    wholeText? n = if (digits n.natAbs).length ≤ maxDigits then some (wholeText n) else none := by
  have hpow (k : Nat) : pow10 k = 10 ^ k := rfl
  have hiff : (digits n.natAbs).length ≤ maxDigits ↔ n.natAbs < pow10 maxDigits := by
    rw [hpow]
    exact Nat.length_toDigits_le_iff (by decide) (by decide)
  have hbits (b : Nat) (hlog : n.natAbs.log2 < b) : n.natAbs < pow2 b :=
    Nat.lt_of_lt_of_le Nat.lt_log2_self (Nat.pow_le_pow_right (by decide) hlog)
  have hlimit : pow2 14284 ≤ pow10 maxDigits := by decide +kernel
  have hshort (hlog : n.natAbs.log2 < 14284) : n.natAbs < pow10 maxDigits :=
    Nat.lt_of_lt_of_le (hbits _ hlog) hlimit
  rw [wholeText?]
  generalize pow10 maxDigits = limit at hiff hshort ⊢
  by_cases h : n.natAbs < limit
  · rw [if_pos (hiff.2 h), if_pos (by simp [h])]
  · rw [if_neg (mt hiff.1 h), if_neg (by simpa [h] using mt hshort h)]

/-! ## Numerals -/

/-- A numeral as floats are written: digits, places after a point, an exponent with its sign. -/
structure Numeral where
  whole : List Char
  places : List Char
  /-- the digits of the exponent, and whether it is negative -/
  exponent : Option (Bool × List Char)
  whole_digits : ∀ c ∈ whole, c.isDigit = true
  whole_ne_nil : whole ≠ []
  /-- a zero is the only digit before the point or is not the first one -/
  leading : whole = ['0'] ∨ whole.head? ≠ some '0'
  places_digits : ∀ c ∈ places, c.isDigit = true
  exponent_digits : ∀ e ∈ exponent, e.2 ≠ [] ∧ ∀ c ∈ e.2, c.isDigit = true
  /-- it is not written as a whole number -/
  real : places ≠ [] ∨ exponent.isSome = true

namespace Numeral

/-- The point and the places after it. -/
def fraction (n : Numeral) : List Char :=
  if n.places = [] then [] else '.' :: n.places

/-- The exponent with its mark. -/
def power (n : Numeral) : List Char :=
  match n.exponent with
  | none => []
  | some (neg, ds) => 'e' :: (if neg then '-' else '+') :: ds

/-- The text of a numeral. -/
def chars (n : Numeral) : List Char :=
  n.whole ++ (n.fraction ++ n.power)

/-- The exponent as a number. -/
def exponentValue (n : Numeral) : Int :=
  match n.exponent with
  | none => 0
  | some (neg, ds) => if neg then -(digitsValue ds : Int) else digitsValue ds

/-- The number without its point and exponent. -/
def significand (n : Numeral) : Nat :=
  digitsValue (n.whole ++ n.places)

/-- The place of the last digit. -/
def scale (n : Numeral) : Int :=
  n.exponentValue - n.places.length

/-- The number of digits. -/
def count (n : Numeral) : Nat :=
  n.whole.length + n.places.length

variable (n : Numeral)

theorem power_head (h : c ∈ n.power.head?) : c = 'e' := by
  unfold power at h
  split at h
  · cases h
  · exact (Option.some.inj h).symm

theorem fraction_head (h : c ∈ n.fraction.head?) : c = '.' := by
  unfold fraction at h
  split at h
  · cases h
  · exact (Option.some.inj h).symm

theorem tail_head (h : c ∈ (n.fraction ++ n.power).head?) : c = '.' ∨ c = 'e' := by
  unfold fraction at h
  split at h
  · exact .inr (n.power_head h)
  · exact .inl (Option.some.inj h).symm

theorem readExponent_power {neg : Bool} {ds : List Char} (h : n.exponent = some (neg, ds)) :
    readExponent ((if neg then '-' else '+') :: ds) = some (n.exponentValue, []) := by
  obtain ⟨hne, hds⟩ := n.exponent_digits _ h
  have hread := readDigits_of_decimals hds false
  have hempty : (digitValues ds).isEmpty = false := by
    simpa using hne
  unfold exponentValue
  rw [h]
  cases neg with
  | true =>
    rw [readExponent]
    simp only [if_true, readSign, hread, hempty, ofDigits_eq]
    rfl
  | false =>
    rw [readExponent]
    simp only [Bool.false_eq_true, if_false, readSign, hread, hempty, ofDigits_eq]

theorem readPower_power (hsize : n.exponentValue.natAbs ≤ 1000000) :
    readPower n.power = some n.exponentValue := by
  unfold power
  cases hexp : n.exponent with
  | none => rw [exponentValue, hexp, readPower]
  | some e =>
    dsimp only
    rw [readPower, n.readExponent_power hexp]
    simp [Nat.not_lt.2 hsize]

theorem readPlaces_tail : readPlaces (n.fraction ++ n.power) = (digitValues n.places, n.power) := by
  unfold fraction
  split
  · next hnone =>
    have hpoint (tail : List Char) : n.power ≠ '.' :: tail := by
      intro htail
      exact absurd (n.power_head (c := '.') (by rw [htail]; rfl)) (by decide)
    rw [List.nil_append, readPlaces.eq_2 _ hpoint, hnone]
    rfl
  · rw [List.cons_append, readPlaces]
    apply readDigits_append n.places_digits
    intro c hc
    rw [n.power_head hc]
    decide

theorem readDecimal_chars (neg : Bool) (hsize : n.exponentValue.natAbs ≤ 1000000) :
    readDecimal neg n.chars = some (ofDecimal neg n.significand n.count n.scale) := by
  have hwhole : readDigits false (n.whole ++ (n.fraction ++ n.power)) =
      (digitValues n.whole, n.fraction ++ n.power) := by
    apply readDigits_append n.whole_digits
    intro c hc
    rcases n.tail_head hc with rfl | rfl <;> decide
  have hcount : (digitValues n.whole ++ digitValues n.places).length = n.count := by simp [count]
  have hvalue : ofDigits (digitValues n.whole ++ digitValues n.places) = n.significand := by
    rw [← List.map_append, ofDigits_eq, significand]
  have hsome : (digitValues n.whole ++ digitValues n.places).isEmpty = false := by
    simp [n.whole_ne_nil]
  rw [readDecimal, chars, hwhole]
  dsimp only
  rw [n.readPlaces_tail, hsome, hvalue, hcount, List.length_map, n.readPower_power hsize]
  rfl

end Numeral

/-! ## The text of a float -/

theorem pos_of_near {n : Nat} (hm : 0 < m) (hnear : Near m q (n * 10 ^ e)) : 0 < n := by
  rcases Nat.eq_zero_or_pos n with rfl | hpos
  · have hle := hnear.low
    rw [Nat.cast_zero, zero_mul] at hle
    have hm₁ : (1 : ℚ) ≤ m := by exact_mod_cast hm
    have hshare := lowerShare_le m q
    have hpow : (0 : ℚ) < 2 ^ q := by positivity
    exact absurd hle (not_le.2 (mul_pos (by linarith) hpow))
  · exact hpos

/-- A decimal within the range of floats is rounded as the ratio it stands for. -/
theorem ofDecimal_eq (neg : Bool) {n count : Nat} (hn : Normal m q) (hm : 0 < m)
    (hnear : Near m q (n * 10 ^ e)) (hlow : -400 ≤ (count : Int) + e)
    (hhigh : (count : Int) + e ≤ 400) : ofDecimal neg n count e = ofParts neg m q := by
  have hpos := pos_of_near hm hnear
  rw [ofDecimal.eq_def, if_neg hpos.ne', if_neg (by omega), if_neg (by omega)]
  cases e with
  | ofNat k =>
    refine ofRatio_eq neg hn hm Nat.one_pos ?_
    rw [Int.ofNat_eq_natCast, zpow_natCast] at hnear
    simpa [pow10] using hnear
  | negSucc k =>
    refine ofRatio_eq neg hn hm (Nat.pow_pos (by decide)) ?_
    rw [zpow_negSucc] at hnear
    simpa [pow10, div_eq_mul_inv] using hnear

/-- The digits of an exponent, zeros in front of them included. -/
def paddedDigits (width n : Nat) : List Char :=
  List.replicate (width - (digits n).length) '0' ++ digits n

theorem exponentText_eq (width : Nat) (e : Int) :
    exponentText width e = (if e < 0 then '-' else '+') :: paddedDigits width e.natAbs := rfl

theorem isDigit_of_mem_paddedDigits {width n : Nat} (h : c ∈ paddedDigits width n) :
    c.isDigit = true := by
  rcases List.mem_append.1 h with h | h
  · rw [List.eq_of_mem_replicate h]
    rfl
  · exact isDigit_of_mem_digits h

theorem digitsValue_paddedDigits (width n : Nat) : digitsValue (paddedDigits width n) = n := by
  rw [paddedDigits, digitsValue_append, digitsValue_zeros, digitsValue_digits, Nat.mul_zero,
    Nat.zero_add]

theorem paddedDigits_ne_nil (width n : Nat) : paddedDigits width n ≠ [] := by
  have h : digits n ≠ [] := Nat.toDigits_ne_nil
  simp [paddedDigits, h]

/-- What a layout makes of digits: a numeral for the number that has them from the place `e` on. -/
def LaysOut (cs ds : List Char) (e : Int) : Prop :=
  ∃ n : Numeral, cs = n.chars ∧
    (n.significand : ℚ) * 10 ^ n.scale = digitsValue ds * 10 ^ (e + 1 - ds.length) ∧
    ((n.count : Int) + n.scale = e + 1 ∨ (n.count : Int) + n.scale = 1) ∧
    n.exponentValue.natAbs ≤ e.natAbs

theorem laysOut_exponent {d : Char} (hds : ∀ c ∈ d :: rest, c.isDigit = true)
    (hhead : d ≠ '0') (e : Int) (width : Nat) :
    LaysOut (d :: (if rest = [] then [] else '.' :: rest) ++ 'e' :: exponentText width e)
      (d :: rest) e := by
  rw [List.forall_mem_cons] at hds
  let n : Numeral :=
    { whole := [d]
      places := rest
      exponent := some (decide (e < 0), paddedDigits width e.natAbs)
      whole_digits := by simpa using hds.1
      whole_ne_nil := List.cons_ne_nil d []
      leading := .inr (by simpa using hhead)
      places_digits := hds.2
      exponent_digits := by
        rintro _ ⟨⟩
        exact ⟨paddedDigits_ne_nil _ _, fun c => isDigit_of_mem_paddedDigits⟩
      real := .inr rfl }
  have hexponent : n.exponentValue = e := by
    simp only [Numeral.exponentValue, n, digitsValue_paddedDigits, decide_eq_true_eq]
    omega
  have hscale : n.scale = e - rest.length := by rw [Numeral.scale, hexponent]
  refine ⟨n, ?_, ?_, .inl ?_, by rw [hexponent]⟩
  · simp [Numeral.chars, Numeral.fraction, Numeral.power, n, exponentText_eq]
  · rw [hscale, List.length_cons]
    congr 2
    push_cast
    ring
  · rw [hscale]
    simp only [Numeral.count, n, List.length_singleton]
    omega

section

variable {ds : List Char} (hds : ∀ c ∈ ds, c.isDigit = true) (hne : ds ≠ [])
  (hhead : ds.head? ≠ some '0')

include hds hne hhead

omit hhead in
theorem laysOut_small (he : e < 0) :
    LaysOut ('0' :: '.' :: List.replicate (e.natAbs - 1) '0' ++ ds) ds e := by
  let n : Numeral :=
    { whole := ['0']
      places := List.replicate (e.natAbs - 1) '0' ++ ds
      exponent := none
      whole_digits := by simp
      whole_ne_nil := List.cons_ne_nil _ _
      leading := .inl rfl
      places_digits := by
        intro c hc
        rcases List.mem_append.1 hc with h | h
        · rw [List.eq_of_mem_replicate h]
          rfl
        · exact hds c h
      exponent_digits := by rintro _ ⟨⟩
      real := .inl (by simp [hne]) }
  have hscale : n.scale = e + 1 - ds.length := by
    simp only [Numeral.scale, Numeral.exponentValue, n, List.length_append, List.length_replicate]
    omega
  refine ⟨n, ?_, ?_, .inr ?_, Nat.zero_le _⟩
  · simp [Numeral.chars, Numeral.fraction, Numeral.power, n, hne]
  · have hvalue : n.significand = digitsValue ds := by
      have hzeros : n.whole ++ n.places = List.replicate (1 + (e.natAbs - 1)) '0' ++ ds := by
        rw [List.replicate_add]
        rfl
      rw [Numeral.significand, hzeros, digitsValue_append, digitsValue_zeros, Nat.mul_zero,
        Nat.zero_add]
    rw [hscale, hvalue]
  · simp only [Numeral.scale, Numeral.exponentValue, Numeral.count, n, List.length_singleton]
    push_cast
    ring

theorem laysOut_whole (he : 0 ≤ e) (hlen : ds.length ≤ e.toNat + 1) :
    LaysOut (ds.take (e.toNat + 1) ++ List.replicate (e.toNat + 1 - ds.length) '0' ++ ['.', '0'])
      ds e := by
  let n : Numeral :=
    { whole := ds ++ List.replicate (e.toNat + 1 - ds.length) '0'
      places := ['0']
      exponent := none
      whole_digits := by
        intro c hc
        rcases List.mem_append.1 hc with h | h
        · exact hds c h
        · rw [List.eq_of_mem_replicate h]
          rfl
      whole_ne_nil := by simp [hne]
      leading := .inr (by rwa [List.head?_append_of_ne_nil _ hne])
      places_digits := by simp
      exponent_digits := by rintro _ ⟨⟩
      real := .inl (List.cons_ne_nil _ _) }
  refine ⟨n, ?_, ?_, .inl ?_, Nat.zero_le _⟩
  · rw [List.take_of_length_le hlen]
    simp [Numeral.chars, Numeral.fraction, Numeral.power, n]
  · have hvalue : n.significand = digitsValue ds * 10 ^ (e.toNat + 1 - ds.length) * 10 := by
      have hplace : digitsValue n.places = 0 := digitsValue_zeros 1
      rw [Numeral.significand, digitsValue_append, digitsValue_append, digitsValue_zeros,
        List.length_replicate, hplace]
      simp only [n, List.length_singleton]
      ring
    have hplace : e + 1 - ds.length = ((e.toNat + 1 - ds.length : ℕ) : ℤ) := by omega
    have hscale : n.scale = -1 := rfl
    rw [hscale, hvalue, hplace, zpow_natCast, zpow_neg_one]
    push_cast
    field_simp
  · simp only [Numeral.scale, Numeral.exponentValue, Numeral.count, n, List.length_append,
      List.length_replicate, List.length_singleton]
    omega

theorem laysOut_places (he : 0 ≤ e) (hlen : e.toNat + 1 < ds.length) :
    LaysOut (ds.take (e.toNat + 1) ++ List.replicate (e.toNat + 1 - ds.length) '0' ++
      '.' :: ds.drop (e.toNat + 1)) ds e := by
  let n : Numeral :=
    { whole := ds.take (e.toNat + 1)
      places := ds.drop (e.toNat + 1)
      exponent := none
      whole_digits := fun c hc => hds c (List.mem_of_mem_take hc)
      whole_ne_nil := by simp [hne]
      leading := .inr (by rwa [List.head?_take, if_neg (Nat.succ_ne_zero _)])
      places_digits := fun c hc => hds c (List.mem_of_mem_drop hc)
      exponent_digits := by rintro _ ⟨⟩
      real := .inl (by simpa using hlen) }
  refine ⟨n, ?_, ?_, .inl ?_, Nat.zero_le _⟩
  · have hnone : e.toNat + 1 - ds.length = 0 := by omega
    have hsome : ds.drop (e.toNat + 1) ≠ [] := by simpa using hlen
    simp [Numeral.chars, Numeral.fraction, Numeral.power, n, hnone, hlen]
  · have hvalue : n.significand = digitsValue ds := by
      rw [Numeral.significand, List.take_append_drop]
    have hscale : n.scale = e + 1 - ds.length := by
      simp only [Numeral.scale, Numeral.exponentValue, n, List.length_drop]
      omega
    rw [hscale, hvalue]
  · simp only [Numeral.scale, Numeral.exponentValue, Numeral.count, n, List.length_take,
      List.length_drop]
    omega

theorem layOut_laysOut (e : Int) : LaysOut (layOut structured ds e) ds e := by
  rw [layOut.eq_def]
  split
  · obtain ⟨d, rest, rfl⟩ := List.exists_cons_of_ne_nil hne
    have h := laysOut_exponent hds (by simpa using hhead) e structured.exponentWidth
    cases rest with
    | nil => exact h
    | cons r rest => exact h
  · split
    · next hsmall => exact laysOut_small hds hne hsmall
    · next hlarge =>
      dsimp only
      split
      · next hempty =>
        have hlen : ds.length ≤ e.toNat + 1 := by simpa using hempty
        exact laysOut_whole hds hne hhead (by omega) hlen
      · next hmore =>
        have hlen : e.toNat + 1 < ds.length := by simpa using hmore
        exact laysOut_places hds hne hhead (by omega) hlen

end

theorem beyond_floats : (2 : ℚ) ^ (1075 : ℤ) ≤ 10 ^ (400 : ℤ) := by
  have h : 2 ^ 1075 ≤ 10 ^ 400 := by decide +kernel
  exact_mod_cast h

/-- The place of the first digit of a number near a float is within the range of decimals that are
rounded. -/
theorem place_bounds {c : Nat} {k : Int} (hn : Normal m q) (hm : 0 < m) (hc : 0 < c)
    (hnear : Near m q (c * 10 ^ k)) :
    -400 ≤ k + (digits c).length ∧ k + (digits c).length ≤ 400 := by
  have hpow : (0 : ℚ) < 2 ^ q := by positivity
  have hten (j : ℤ) : (0 : ℚ) < 10 ^ j := by positivity
  have hlen : 0 < (digits c).length := Nat.length_toDigits_pos
  have hbelow : (c : ℚ) < 10 ^ (digits c).length := by
    exact_mod_cast (Nat.length_toDigits_le_iff (by decide) hlen).1 le_rfl
  have habove : (10 : ℚ) ^ ((digits c).length - 1) ≤ c := by
    rcases Nat.eq_zero_or_pos ((digits c).length - 1) with hone | hmore
    · rw [hone, pow_zero]
      exact_mod_cast hc
    · have hnot := mt (Nat.length_toDigits_le_iff (n := c) (b := 10) (by decide) hmore).2
        (by change ¬ (digits c).length ≤ _; omega)
      exact_mod_cast not_lt.1 hnot
  constructor
  · -- a number near a float is not below half the least one
    by_contra hsmall
    have hleast : (2 : ℚ) ^ (-1075 : ℤ) ≤ c * 10 ^ k := by
      refine le_trans ?_ hnear.low
      have hm₁ : (1 : ℚ) ≤ m := by exact_mod_cast hm
      have hshare := lowerShare_le m q
      calc (2 : ℚ) ^ (-1075 : ℤ) = 1 / 2 * 2 ^ (-1074 : ℤ) := by
            rw [show (-1075 : ℤ) = -1074 - 1 by decide, zpow_sub_one₀ two_ne_zero,
              mul_comm, one_div]
        _ ≤ 1 / 2 * 2 ^ q := by
            gcongr
            · norm_num
            · exact hn.least
        _ ≤ (m - lowerShare m q) * 2 ^ q := by
            gcongr
            linarith
    have hmost : (c : ℚ) * 10 ^ k < 10 ^ (-400 : ℤ) := by
      calc (c : ℚ) * 10 ^ k < 10 ^ (digits c).length * 10 ^ k := by gcongr
        _ = 10 ^ (((digits c).length : ℤ) + k) := by rw [zpow_add₀ (by norm_num), zpow_natCast]
        _ ≤ 10 ^ (-400 : ℤ) := zpow_le_zpow_right₀ (by norm_num) (by omega)
    refine absurd (hleast.trans_lt hmost) (not_lt.2 ?_)
    rw [zpow_neg, zpow_neg]
    exact inv_anti₀ (by positivity) beyond_floats
  · -- nor above the greatest by more than half its unit
    by_contra hlarge
    have hmost : (c : ℚ) * 10 ^ k < 2 ^ (1075 : ℤ) := by
      have hm₂ : (m : ℚ) + 1 ≤ 2 ^ (53 : ℤ) := by exact_mod_cast hn.bits
      calc (c : ℚ) * 10 ^ k ≤ (m + 1 / 2) * 2 ^ q := hnear.high
        _ < 2 ^ (53 : ℤ) * 2 ^ q := by
            gcongr
            linarith
        _ = 2 ^ (53 + q) := (zpow_add₀ two_ne_zero _ _).symm
        _ ≤ 2 ^ (1075 : ℤ) := zpow_le_zpow_right₀ one_le_two (by have := hn.greatest; omega)
    have hleast : (10 : ℚ) ^ (400 : ℤ) ≤ c * 10 ^ k := by
      calc (10 : ℚ) ^ (400 : ℤ) ≤ 10 ^ ((((digits c).length - 1 : ℕ) : ℤ) + k) :=
            zpow_le_zpow_right₀ (by norm_num) (by omega)
        _ = 10 ^ ((digits c).length - 1) * 10 ^ k := by rw [zpow_add₀ (by norm_num), zpow_natCast]
        _ ≤ c * 10 ^ k := by gcongr
    exact absurd (hleast.trans_lt hmost) (not_lt.2 beyond_floats)

theorem magnitude_numeral (hn : Normal m q) : ∃ n : Numeral, magnitude structured m q = n.chars ∧
      ∀ neg, readDecimal neg n.chars = some (ofParts neg m q) := by
  unfold magnitude
  split
  · next hzero =>
    subst hzero
    let n : Numeral :=
      { whole := ['0']
        places := ['0']
        exponent := none
        whole_digits := by simp
        whole_ne_nil := List.cons_ne_nil _ _
        leading := .inl rfl
        places_digits := by simp
        exponent_digits := by rintro _ ⟨⟩
        real := .inl (List.cons_ne_nil _ _) }
    refine ⟨n, rfl, fun neg => ?_⟩
    have hvalue : n.significand = 0 := digitsValue_zeros 2
    rw [n.readDecimal_chars neg (by decide), hvalue, ofDecimal.eq_def, if_pos rfl, ofParts,
      if_pos (by decide), zero]
  · next hm =>
    have hm₁ : 0 < m := Nat.pos_of_ne_zero hm
    dsimp only
    have hnear' := shortest_near hn hm₁
    have hnear := hnear'
    rw [← dropZeros_eq 20] at hnear
    have hpos : 0 < (dropZeros 20 (shortest m q).1 (shortest m q).2).1 := by
      apply dropZeros_pos
      exact pos_of_near hm₁ hnear'
    generalize dropZeros 20 (shortest m q).1 (shortest m q).2 = t at hnear hpos ⊢
    obtain ⟨c, k⟩ := t
    dsimp only at hnear hpos ⊢
    have hplaces := place_bounds hn hm₁ hpos hnear
    obtain ⟨n, htext, hvalue, hcount, hsize⟩ := layOut_laysOut
      (fun d => isDigit_of_mem_digits (n := c)) Nat.toDigits_ne_nil (head_digits hpos)
      (k + (digits c).length - 1)
    refine ⟨n, htext, fun neg => ?_⟩
    have hplace : k + ((digits c).length : ℤ) - 1 + 1 - (digits c).length = k := by omega
    rw [digitsValue_digits, hplace] at hvalue
    rw [n.readDecimal_chars neg (by omega)]
    congr 1
    apply ofDecimal_eq neg hn hm₁
    · rwa [hvalue]
    · omega
    · omega

namespace Numeral

variable (n : Numeral)

theorem mem_chars (h : c ∈ n.chars) : c.isDigit = true ∨ c ∈ ['.', 'e', '-', '+'] := by
  simp only [chars, List.mem_append] at h
  rcases h with h | h | h
  · exact .inl (n.whole_digits c h)
  · unfold fraction at h
    split at h
    · cases h
    · rcases List.mem_cons.1 h with rfl | h
      · right
        decide
      · exact .inl (n.places_digits c h)
  · unfold power at h
    split at h
    · cases h
    · next neg ds hexp =>
      rcases List.mem_cons.1 h with rfl | h
      · right
        decide
      · rcases List.mem_cons.1 h with rfl | h
        · right
          cases neg <;> decide
        · exact .inl ((n.exponent_digits _ hexp).2 c h)

theorem exists_chars : ∃ c tail, n.chars = c :: tail ∧ c.isDigit = true := by
  obtain ⟨c, tail, h⟩ := List.exists_cons_of_ne_nil n.whole_ne_nil
  refine ⟨c, tail ++ (n.fraction ++ n.power), by rw [chars, h, List.cons_append], ?_⟩
  exact n.whole_digits c (by rw [h]; exact List.mem_cons_self)

theorem toLower_of_isNumberChar {c : Char} (h : isNumberChar c = true) : c.toLower = c := by
  refine Char.toLower_eq_of_not_isUpper fun hupper => ?_
  have hrange : 65 ≤ c.toNat ∧ c.toNat ≤ 90 := by
    simpa [Char.isUpper, UInt32.le_iff_toNat_le] using hupper
  have hdigit : isDigit c = false := by
    unfold isDigit
    rw [if_pos (by omega)]
    have hval : c.val.toNat = c.toNat := rfl
    simp only [Char.isDigit, Bool.and_eq_false_iff, decide_eq_false_iff_not, ge_iff_le,
      UInt32.le_iff_toNat_le, hval]
    exact .inr (by simp; omega)
  rw [isNumberChar, hdigit, Bool.false_or, decide_eq_true_eq] at h
  subst h
  simp at hrange

theorem readFloat_chars (neg : Bool) :
    readFloat ((if neg then ['-'] else []) ++ n.chars) = readDecimal neg n.chars := by
  obtain ⟨c, tail, hchars, hc⟩ := n.exists_chars
  have hblank : ∀ d ∈ (if neg then ['-'] else []) ++ n.chars, isBlank d = false := by
    intro d hd
    rcases List.mem_append.1 hd with h | h
    · cases neg with
      | true => rw [List.mem_singleton.1 h]; decide
      | false => cases h
    · rcases n.mem_chars h with h | h
      · exact isBlank_of_decimal h
      · fin_cases h <;> decide
  have hsign : readSign ((if neg then ['-'] else []) ++ n.chars) = (neg, n.chars) := by
    cases neg with
    | true => rfl
    | false =>
      have h₁ : c ≠ '-' := ne_of_decimal hc (by decide)
      have h₂ : c ≠ '+' := ne_of_decimal hc (by decide)
      rw [hchars]
      simp [readSign, h₁, h₂]
  have hlower : lowerAscii n.chars = c :: lowerAscii tail := by
    rw [hchars, lowerAscii, List.map_cons,
      toLower_of_isNumberChar (by simp [isNumberChar, isDigit_of_decimal hc])]
    rfl
  -- the words for what is not finite start with letters
  have hi : c ≠ 'i' := ne_of_decimal hc (by decide)
  have hn : c ≠ 'n' := ne_of_decimal hc (by decide)
  rw [readFloat, trimBy_eq_self hblank, hsign]
  dsimp only
  rw [hlower]
  simp [hi, hn]

end Numeral

/-- The text of a finite float is a numeral with the sign of the float, and reads as the float. -/
theorem written_finite {x : Float} {neg : Bool} (h : Binary.ofFloat x = .finite neg m q) :
    ∃ n : Numeral, written structured x = String.ofList ((if neg then ['-'] else []) ++ n.chars) ∧
      readFloat ((if neg then ['-'] else []) ++ n.chars) = some x := by
  obtain ⟨hn, hx⟩ := ofFloat_finite h
  obtain ⟨n, htext, hread⟩ := magnitude_numeral hn
  refine ⟨n, ?_, ?_⟩
  · rw [written, h]
    dsimp only
    rw [htext]
  · rw [n.readFloat_chars, hread, hx]

end ScriptLang.Number

namespace ScriptLang.Json

open ScriptLang.Number ScriptLang.Text

variable {c : Char} {rest : List Char}

/-! ## Numbers in documents -/

/-- A text that does not go on with a number. -/
def Ended (rest : List Char) : Prop :=
  ∀ c ∈ rest.head?, c.isDigit = false ∧ c ≠ '.' ∧ c ≠ 'e' ∧ c ≠ 'E'

theorem span_append {p : Char → Bool} {ds : List Char} (hds : ∀ c ∈ ds, p c = true)
    (hrest : ∀ c ∈ rest.head?, p c = false) :
    (ds ++ rest).takeWhile p = ds ∧ (ds ++ rest).dropWhile p = rest := by
  rw [List.takeWhile_append_of_pos hds, List.dropWhile_append_of_pos hds]
  cases rest with
  | nil => simp
  | cons c cs => simp [hrest c rfl]

theorem splitWhole_append {ds : List Char} (hds : ∀ c ∈ ds, c.isDigit = true)
    (hleading : ds = ['0'] ∨ ds.head? ≠ some '0') (hne : ds ≠ [])
    (hrest : ∀ c ∈ rest.head?, c.isDigit = false) : splitWhole (ds ++ rest) = (ds, rest) := by
  rcases hleading with rfl | hhead
  · rfl
  · obtain ⟨h₁, h₂⟩ := span_append hds hrest
    rw [splitWhole, h₁, h₂]
    intro tail htail
    obtain ⟨d, ds, rfl⟩ := List.exists_cons_of_ne_nil hne
    rw [List.cons_append, List.cons.injEq] at htail
    exact hhead (by rw [List.head?_cons, htail.1])

theorem splitFraction_ended (h : ∀ c ∈ rest.head?, c ≠ '.') : splitFraction rest = ([], rest) := by
  unfold splitFraction
  split
  · next d tail => exact absurd rfl (h '.' rfl)
  · rfl

theorem splitExponent_ended (h : ∀ c ∈ rest.head?, c ≠ 'e' ∧ c ≠ 'E') :
    splitExponent rest = ([], rest) := by
  cases rest with
  | nil => rfl
  | cons c cs => simp [splitExponent, h c rfl]

theorem power_head_append (n : Numeral) (h : Ended rest)
    (hc : c ∈ (n.power ++ rest).head?) : c.isDigit = false ∧ c ≠ '.' := by
  cases hpower : n.power with
  | nil =>
    rw [hpower, List.nil_append] at hc
    exact ⟨(h c hc).1, (h c hc).2.1⟩
  | cons d ds =>
    rw [hpower, List.cons_append, List.head?_cons] at hc
    rw [← Option.some.inj hc, n.power_head (c := d) (by rw [hpower]; rfl)]
    decide

theorem splitFraction_numeral (n : Numeral) (h : Ended rest) :
    splitFraction (n.fraction ++ (n.power ++ rest)) = (n.fraction, n.power ++ rest) := by
  have hhead : ∀ c ∈ (n.power ++ rest).head?, c.isDigit = false ∧ c ≠ '.' :=
    fun c => power_head_append n h
  unfold Numeral.fraction
  split
  · rw [List.nil_append]
    exact splitFraction_ended fun c hc => (hhead c hc).2
  · next hplaces =>
    obtain ⟨d, ds, hds⟩ := List.exists_cons_of_ne_nil hplaces
    have hdigits := n.places_digits
    obtain ⟨h₁, h₂⟩ := span_append hdigits fun c hc => (hhead c hc).1
    rw [hds] at hdigits h₁ h₂ ⊢
    rw [List.cons_append, List.cons_append, splitFraction, if_pos (hdigits d List.mem_cons_self)]
    rw [List.cons_append] at h₁ h₂
    rw [h₁, h₂]

theorem splitExponent_numeral (n : Numeral) (h : Ended rest) :
    splitExponent (n.power ++ rest) = (n.power, rest) := by
  unfold Numeral.power
  split
  · exact splitExponent_ended fun c hc => (h c hc).2.2
  · next neg ds hexp =>
    obtain ⟨hne, hds⟩ := n.exponent_digits _ hexp
    obtain ⟨h₁, h₂⟩ := span_append hds fun c hc => (h c hc).1
    cases neg with
    | true => simp [splitExponent, h₁, h₂, hne]
    | false => simp [splitExponent, h₁, h₂, hne]

theorem splitMinus_append (neg : Bool) (hc : c.isDigit = true) (tail : List Char) :
    splitMinus ((if neg then ['-'] else []) ++ c :: tail) =
      ((if neg then ['-'] else []), c :: tail) := by
  cases neg with
  | true => rfl
  | false =>
    rw [if_neg Bool.false_ne_true, List.nil_append, splitMinus]
    intro rest h
    exact ne_of_decimal hc (by decide) (List.cons.inj h).1

/-- A signed numeral in a document reads as the float it reads as, and reading goes on after it. -/
theorem readNumber_numeral (neg : Bool) (n : Numeral) {x : Float}
    (hread : readFloat ((if neg then ['-'] else []) ++ n.chars) = some x) (h : Ended rest) :
    readNumber ((if neg then ['-'] else []) ++ n.chars ++ rest) = .ok (.real x, rest) := by
  obtain ⟨c, tail, hchars, hc⟩ := n.exists_chars
  have hminus : splitMinus ((if neg then ['-'] else []) ++ n.chars ++ rest) =
      ((if neg then ['-'] else []), n.chars ++ rest) := by
    rw [List.append_assoc, hchars, List.cons_append]
    exact splitMinus_append neg hc _
  have hwhole : splitWhole (n.chars ++ rest) = (n.whole, n.fraction ++ (n.power ++ rest)) := by
    rw [Numeral.chars, List.append_assoc, List.append_assoc]
    apply splitWhole_append n.whole_digits n.leading n.whole_ne_nil
    intro d hd
    cases hfraction : n.fraction with
    | nil =>
      rw [hfraction, List.nil_append] at hd
      exact (power_head_append n h hd).1
    | cons f fs =>
      rw [hfraction, List.cons_append, List.head?_cons] at hd
      rw [← Option.some.inj hd, n.fraction_head (c := f) (by rw [hfraction]; rfl)]
      decide
  have hreal : (n.fraction.isEmpty && n.power.isEmpty) = false := by
    rcases n.real with hplaces | hexponent
    · simp [Numeral.fraction, hplaces]
    · obtain ⟨⟨negative, ds⟩, he⟩ := Option.isSome_iff_exists.1 hexponent
      simp [Numeral.power, he]
  have hne : n.whole.isEmpty = false := by simpa using n.whole_ne_nil
  have htext : (if neg then ['-'] else []) ++ n.whole ++ n.fraction ++ n.power =
      (if neg then ['-'] else []) ++ n.chars := by
    simp only [Numeral.chars, List.append_assoc]
  simp only [readNumber, hminus, hwhole, hne, splitFraction_numeral n h, splitExponent_numeral n h,
    hreal, htext, hread, Bool.false_eq_true, if_false]

theorem readWhole_digits {n : Int} (hsize : (digits n.natAbs).length ≤ maxDigits) :
    readWhole maxDigits ((if n < 0 then ['-'] else []) ++ digits n.natAbs) = .ok n := by
  have hdigits : ∀ c ∈ digits n.natAbs, c.isDigit = true := fun c => isDigit_of_mem_digits
  have hblank : ∀ c ∈ (if n < 0 then ['-'] else []) ++ digits n.natAbs, isBlank c = false := by
    intro c hc
    rcases List.mem_append.1 hc with h | h
    · split at h
      · rw [List.mem_singleton.1 h]
        decide
      · cases h
    · exact isBlank_of_decimal (hdigits c h)
  have hsign : readSign ((if n < 0 then ['-'] else []) ++ digits n.natAbs) =
      (decide (n < 0), digits n.natAbs) := by
    split
    · next h => simp [readSign, h]
    · next h => simp [readSign_of_decimals hdigits, h]
  have hne : (digitValues (digits n.natAbs)).isEmpty = false := by
    have h : digits n.natAbs ≠ [] := Nat.toDigits_ne_nil
    simpa using h
  rw [readWhole, trimBy_eq_self hblank, hsign]
  dsimp only
  rw [readDigits_of_decimals hdigits]
  simp only [hne, ofDigits_eq, digitsValue_digits, List.length_map, Nat.not_lt.2 hsize,
    List.isEmpty_nil, Bool.not_true, Bool.or_self, Bool.false_eq_true, if_false, decide_eq_true_eq]
  congr 1
  omega

theorem readNumber_wholeText {n : Int} (hsize : (digits n.natAbs).length ≤ maxDigits)
    (h : Ended rest) : readNumber ((wholeText n).toList ++ rest) = .ok (.whole n, rest) := by
  have hdigits : ∀ c ∈ digits n.natAbs, c.isDigit = true := fun c => isDigit_of_mem_digits
  have hne : digits n.natAbs ≠ [] := Nat.toDigits_ne_nil
  have hleading : digits n.natAbs = ['0'] ∨ (digits n.natAbs).head? ≠ some '0' := by
    rcases Nat.eq_zero_or_pos n.natAbs with hzero | hpos
    · left
      rw [hzero]
      exact Nat.toDigits_zero 10
    · right
      exact head_digits hpos
  have hread := readWhole_digits hsize
  have hwhole := splitWhole_append hdigits hleading hne (fun c hc => (h c hc).1)
  rw [wholeText, String.toList_ofList, List.append_assoc]
  generalize digits n.natAbs = ds at hdigits hne hread hwhole ⊢
  obtain ⟨d, tail, rfl⟩ := List.exists_cons_of_ne_nil hne
  have hminus := splitMinus_append (decide (n < 0)) (hdigits d List.mem_cons_self) (tail ++ rest)
  simp only [decide_eq_true_eq, ← List.cons_append] at hminus
  simp only [readNumber, hminus, hwhole, splitFraction_ended fun c hc => (h c hc).2.1,
    splitExponent_ended fun c hc => (h c hc).2.2, hread, List.isEmpty_cons, List.isEmpty_nil,
    Bool.and_self, Bool.false_eq_true, if_false, if_true]

end ScriptLang.Json
