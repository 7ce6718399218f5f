import Mathlib
import ScriptLang.Proofs.NearestFloat

/-!
# The shortest digits of a float

A float is written with the fewest digits that read back as the same float. The search goes through
finer and finer grids of decimal numbers and takes a point that lies in the interval of numbers
rounded to the float. It always finds one: with 17 digits the grid is finer than the interval,
because the search starts from a power of ten that is not above the float.
-/

namespace ScriptLang.Number

/-! ## Taking a float apart and putting it together -/

variable {x : Float} {m : Nat} {q : Int}

/-- The parts of a float with known bits. -/
theorem ofFloat_eq {n : Nat} (h : x.toBits.toNat = n) : Binary.ofFloat x =
      if n / 2 ^ 52 % 2048 = 2047 then
        if n % 2 ^ 52 = 0 then .infinite (n / 2 ^ 63 == 1) else .nan
      else if n / 2 ^ 52 % 2048 = 0 then .finite (n / 2 ^ 63 == 1) (n % 2 ^ 52) (-1074)
      else .finite (n / 2 ^ 63 == 1) (2 ^ 52 + n % 2 ^ 52)
        (((n / 2 ^ 52 % 2048 : Nat) : Int) - 1075) := by
  subst h
  unfold Binary.ofFloat
  simp only [beq_iff_eq, pow2_eq]

theorem assemble_fields (x : Float) :
    assemble (x.toBits.toNat / 2 ^ 63 == 1) (x.toBits.toNat / 2 ^ 52 % 2048)
      (x.toBits.toNat % 2 ^ 52) = x := by
  have hsize : x.toBits.toNat < 2 ^ 64 := x.toBits.toNat_lt
  have hparts : (if (x.toBits.toNat / 2 ^ 63 == 1) = true then pow2 63 else 0) +
      x.toBits.toNat / 2 ^ 52 % 2048 * pow2 52 + x.toBits.toNat % 2 ^ 52 = x.toBits.toNat := by
    simp only [pow2_eq, beq_iff_eq]
    split <;> omega
  rw [assemble, hparts, Nat.toUInt64_eq, UInt64.ofNat_toNat, Float.ofBits_toBits]

theorem ofFloat_finite {neg : Bool} (h : Binary.ofFloat x = .finite neg m q) :
    Normal m q ∧ ofParts neg m q = x := by
  have hwhole := assemble_fields x
  rw [ofFloat_eq rfl] at h
  generalize x.toBits.toNat = n at h hwhole
  split at h
  · split at h <;> cases h
  · next hfinite =>
    split at h
    · next hzero =>
      cases h
      have hfrac : n % 2 ^ 52 < 2 ^ 52 := Nat.mod_lt _ (by decide)
      refine ⟨⟨by omega, by decide, by decide, .inr rfl⟩, ?_⟩
      rw [ofParts, if_pos hfrac]
      rwa [hzero] at hwhole
    · next hzero =>
      cases h
      refine ⟨⟨by omega, by omega, by omega, .inl (by omega)⟩, ?_⟩
      have hfield : ((n / 2 ^ 52 % 2048 : Nat) - 1075 + 1075 : Int).toNat = n / 2 ^ 52 % 2048 := by
        omega
      rw [ofParts, if_neg (by omega), hfield, Nat.add_sub_cancel_left]
      exact hwhole

theorem ofFloat_infinite {neg : Bool} (h : Binary.ofFloat x = .infinite neg) :
    infinity neg = x := by
  have hwhole := assemble_fields x
  rw [ofFloat_eq rfl] at h
  generalize x.toBits.toNat = n at h hwhole
  split at h
  · next hfield =>
    split at h
    · next hfrac =>
      cases h
      rwa [hfield, hfrac] at hwhole
    · cases h
  · split at h <;> cases h

theorem ofFloat_nan (h : Binary.ofFloat x = .nan) : notANumber = x := by
  have hbits : x.toBits.toNat / 2 ^ 52 % 2048 = 2047 ∧ x.toBits.toNat % 2 ^ 52 ≠ 0 := by
    rw [ofFloat_eq rfl] at h
    split at h
    · next hfield =>
      split at h
      · cases h
      · next hfrac => exact ⟨hfield, hfrac⟩
    · split at h <;> cases h
  obtain ⟨⟨bits, valid⟩⟩ := x
  change bits.toNat / 2 ^ 52 % 2048 = 2047 ∧ bits.toNat % 2 ^ 52 ≠ 0 at hbits
  have hpacked : bits.toBitVec = Float.Model.UnpackedFloat.packedNaN .binary64 := by
    apply valid.eq_packedNaN
    · apply BitVec.eq_of_toNat_eq
      simpa [Float.Model.UnpackedFloat.unpackExponent, Float.Model.Format.binary64,
        Nat.shiftRight_eq_div_pow] using hbits.1
    · intro hzero
      apply hbits.2
      simpa [Float.Model.UnpackedFloat.unpackMantissa, Float.Model.Format.binary64] using
        congrArg BitVec.toNat hzero
  rw [← Float.toBits_inj]
  apply UInt64.toBitVec_inj.1
  rw [show (Float.ofModel ⟨bits, valid⟩).toBits = bits from rfl, hpacked]
  decide +kernel

/-! ## The digits -/

/-- A power of ten lies below the power of two whose logarithm estimates its own, up to a factor of
two: `log₁₀ 2` is a little below `0.30103`. -/
theorem ten_zpow_le {e k : ℤ} (he : e ≤ 100000) (hk : k * 100000 ≤ e * 30103) :
    (10 : ℚ) ^ k ≤ 2 ^ (e + 1) := by
  have hk' : k * 100000 ≤ 30103 * e := by omega
  have hlow : (2 : ℚ) ^ (100000 : ℤ) ≤ 10 ^ (30103 : ℤ) := by
    have h : 2 ^ 100000 ≤ 10 ^ 30103 := by decide +kernel
    exact_mod_cast h
  have hhigh : (10 : ℚ) ^ (30103 : ℤ) ≤ 2 ^ (100001 : ℤ) := by
    have h : 10 ^ 30103 ≤ 2 ^ 100001 := by decide +kernel
    exact_mod_cast h
  have hpower : (10 : ℚ) ^ (30103 * e) ≤ 2 ^ (100000 * (e + 1)) := by
    rcases le_or_gt 0 e with hpos | hneg
    · obtain ⟨n, rfl⟩ := Int.eq_ofNat_of_zero_le hpos
      calc (10 : ℚ) ^ (30103 * (n : ℤ)) = (10 ^ (30103 : ℤ)) ^ n := by rw [zpow_mul, zpow_natCast]
        _ ≤ (2 ^ (100001 : ℤ)) ^ n := by gcongr
        _ = 2 ^ (100001 * (n : ℤ)) := by rw [zpow_mul, zpow_natCast]
        _ ≤ 2 ^ (100000 * ((n : ℤ) + 1)) := zpow_le_zpow_right₀ one_le_two (by omega)
    · obtain ⟨n, rfl⟩ : ∃ n : ℕ, e = -n := ⟨(-e).toNat, by omega⟩
      calc (10 : ℚ) ^ (30103 * -(n : ℤ)) = ((10 ^ (30103 : ℤ)) ^ n)⁻¹ := by
            rw [mul_neg, zpow_neg, zpow_mul, zpow_natCast]
        _ ≤ ((2 ^ (100000 : ℤ)) ^ n)⁻¹ := by gcongr
        _ = 2 ^ (100000 * -(n : ℤ)) := by rw [mul_neg, zpow_neg, zpow_mul, zpow_natCast]
        _ ≤ 2 ^ (100000 * (-(n : ℤ) + 1)) := zpow_le_zpow_right₀ one_le_two (by omega)
  have hroot : ((10 : ℚ) ^ k) ^ 100000 ≤ (2 ^ (e + 1)) ^ 100000 := by
    rw [← zpow_natCast, ← zpow_natCast, ← zpow_mul, ← zpow_mul, Nat.cast_ofNat, mul_comm (e + 1)]
    exact (zpow_le_zpow_right₀ (by norm_num) hk').trans hpower
  exact le_of_pow_le_pow_left₀ (by decide) (by positivity) hroot

theorem reaches_iff (num : Nat) {den : Nat} (hden : 0 < den) (k : Int) :
    reaches num den k = true ↔ (10 : ℚ) ^ k ≤ num / den := by
  have hd : (0 : ℚ) < den := by positivity
  rw [le_div_iff₀ hd]
  cases k with
  | ofNat n =>
    rw [reaches, decide_eq_true_iff, pow10, Nat.pow_eq, Int.ofNat_eq_natCast,
      zpow_natCast, mul_comm]
    exact_mod_cast Iff.rfl
  | negSucc n =>
    rw [reaches, decide_eq_true_iff, pow10, Nat.pow_eq, zpow_negSucc,
      inv_mul_le_iff₀ (by positivity), mul_comm]
    exact_mod_cast Iff.rfl

/-- The decimal exponent of a ratio is the exponent of a power of ten that is not above it. -/
theorem decimalExponent_le {num den : Nat} (hnum : 0 < num) (hden : 0 < den)
    (he : (Nat.log2 num : Int) - Nat.log2 den ≤ 100000) :
    (10 : ℚ) ^ decimalExponent num den ≤ num / den := by
  simp only [decimalExponent, reaches_iff num hden]
  generalize he₂ : (Nat.log2 num : Int) - Nat.log2 den = e₂ at he ⊢
  split
  · next h => exact h
  · split
    · next h => exact h
    · split
      · next h => exact h
      · -- the estimate is never off by more
        have hest : (e₂ * 30103).fdiv 100000 * 100000 ≤ e₂ * 30103 := by
          rw [Int.fdiv_eq_ediv_of_nonneg _ (by decide)]
          exact Int.ediv_mul_le _ (by decide)
        have hten := ten_zpow_le he hest
        have hbinary := (binaryExponent_guess hnum hden he₂.symm).1
        refine le_trans ?_ hbinary
        have hpow : (0 : ℚ) < 2 ^ e₂ := by positivity
        rw [zpow_add_one₀ two_ne_zero] at hten
        rw [zpow_sub₀ (by norm_num), zpow_sub_one₀ two_ne_zero]
        norm_num
        linarith

theorem ratioOf_pos (m : Nat) (q : Int) : 0 < (ratioOf m q).2 :=
  scaleRatio_pos m Nat.one_pos q

theorem ratioOf_eq (m : Nat) (q : Int) : ((ratioOf m q).1 : ℚ) / (ratioOf m q).2 = m * 2 ^ q := by
  rw [ratioOf, scaleRatio_eq m Nat.one_pos, Nat.cast_one, div_one]

/-- The place of a number on the grid of the multiples of a power of ten. -/
theorem grid_eq (m : Nat) (q k : Int) :
    ((gridRatio (ratioOf m q).1 (ratioOf m q).2 k).1 : ℚ) /
      (gridRatio (ratioOf m q).1 (ratioOf m q).2 k).2 = m * 2 ^ q / 10 ^ k := by
  rw [gridRatio_eq _ (ratioOf_pos m q), ratioOf_eq]

/-- A grid point lies in an interval when the number it stands for does. -/
theorem between_iff (lo hi : Nat) (q : Int) (closed : Bool) (k : Int) (c : Nat) :
    between lo hi q closed k c = true ↔
      if closed then (lo : ℚ) * 2 ^ q ≤ c * 10 ^ k ∧ (c : ℚ) * 10 ^ k ≤ hi * 2 ^ q
      else (lo : ℚ) * 2 ^ q < c * 10 ^ k ∧ (c : ℚ) * 10 ^ k < hi * 2 ^ q := by
  have hlo := grid_eq lo q k
  have hhi := grid_eq hi q k
  have hlopos := gridRatio_pos (ratioOf lo q).1 (ratioOf_pos lo q) k
  have hhipos := gridRatio_pos (ratioOf hi q).1 (ratioOf_pos hi q) k
  unfold between
  generalize gridRatio (ratioOf lo q).1 (ratioOf lo q).2 k = l at hlo hlopos ⊢
  generalize gridRatio (ratioOf hi q).1 (ratioOf hi q).2 k = h at hhi hhipos ⊢
  have hl : (0 : ℚ) < l.2 := by exact_mod_cast hlopos
  have hh : (0 : ℚ) < h.2 := by exact_mod_cast hhipos
  have hten : (0 : ℚ) < 10 ^ k := by positivity
  cases closed with
  | true =>
    simp only [if_true, Bool.and_eq_true, decide_eq_true_eq]
    rw [← div_le_iff₀ hten, ← hlo, div_le_iff₀ hl, ← le_div_iff₀ hten, ← hhi, le_div_iff₀ hh]
    exact_mod_cast Iff.rfl
  | false =>
    simp only [Bool.false_eq_true, if_false, Bool.and_eq_true, decide_eq_true_eq]
    rw [← div_lt_iff₀ hten, ← hlo, div_lt_iff₀ hl, ← lt_div_iff₀ hten, ← hhi, lt_div_iff₀ hh]
    exact_mod_cast Iff.rfl

/-- The search ends at a grid point in the interval when the finest grid has one. -/
theorem shortestFrom_between {m4 lo hi : Nat} {closed : Bool} {e : Int} {g : Nat × Nat}
    (hg : g = gridRatio (ratioOf m4 q).1 (ratioOf m4 q).2 (e - 16))
    (h : between lo hi q closed (e - 16) (g.1 / g.2) = true ∨
      between lo hi q closed (e - 16) (g.1 / g.2 + 1) = true) (fuel n : Nat) (hn : n + fuel = 18)
    (hfuel : 0 < fuel) : between lo hi q closed (shortestFrom m4 lo hi q closed e fuel n).2
      (shortestFrom m4 lo hi q closed e fuel n).1 = true := by
  induction fuel generalizing n with
  | zero => omega
  | succ fuel ih =>
    rw [shortestFrom]
    split
    · next hboth =>
      rw [Bool.and_eq_true] at hboth
      split
      · exact hboth.1
      · split
        · exact hboth.2
        · split
          · exact hboth.1
          · exact hboth.2
    · split
      · next hbelow => exact hbelow
      · next hbelow =>
        split
        · next habove => exact habove
        · next habove =>
          rcases Nat.eq_zero_or_pos fuel with rfl | hpos
          · -- this was the finest grid
            have hk : e - n + 1 = e - 16 := by omega
            rw [hk, ← hg] at hbelow habove
            exact absurd h (by simp [hbelow, habove])
          · exact ih (n + 1) (by omega) hpos

/-- Of two neighbouring grid points around a number one lies in every interval around the number
that is wider than the grid. -/
theorem exists_grid_point {v g low high : ℚ} {below : Nat} (hbelow : below * g ≤ v)
    (habove : v < (below + 1) * g) (hlow : low < v) (hhigh : v < high) (hg : g < high - low) :
    (low < below * g ∧ below * g < high) ∨
      (low < (below + 1 : ℕ) * g ∧ (below + 1 : ℕ) * g < high) := by
  push_cast
  by_cases h : low < below * g
  · left
    exact ⟨h, hbelow.trans_lt hhigh⟩
  · right
    constructor
    · exact hlow.trans habove
    · have hstep : ((below : ℚ) + 1) * g = below * g + g := by ring
      linarith

/-- The lower end of the interval that belongs to a float, in quarters of the unit. -/
theorem lowerEnd_eq (hm : 0 < m) (q : Int) :
    ((if m == pow2 52 && decide (-1074 < q) then 4 * m - 1 else 4 * m - 2 : ℕ) : ℚ) * 2 ^ (q - 2) =
      (m - lowerShare m q) * 2 ^ q := by
  rw [zpow_sub₀ two_ne_zero, lowerShare]
  simp only [pow2_eq, Bool.and_eq_true, beq_iff_eq, decide_eq_true_eq]
  split
  · rw [Nat.cast_sub (by omega)]
    push_cast
    norm_num
    ring
  · rw [Nat.cast_sub (by omega)]
    push_cast
    norm_num
    ring

theorem grid_lt_gap {e : Int} (hbits : m < 2 ^ 53) (he : (10 : ℚ) ^ e ≤ m * 2 ^ q) :
    (10 : ℚ) ^ (e - 16) < (m + 1 / 2) * 2 ^ q - (m - lowerShare m q) * 2 ^ q := by
  have hpow : (0 : ℚ) < 2 ^ q := by positivity
  have hm : (m : ℚ) < 2 ^ 53 := by exact_mod_cast hbits
  have hgrid : (10 : ℚ) ^ (e - 16) ≤ m * 2 ^ q / 10 ^ 16 := by
    rw [zpow_sub₀ (by norm_num)]
    exact div_le_div_of_nonneg_right he (by positivity)
  refine hgrid.trans_lt ?_
  rw [← sub_mul, mul_div_right_comm]
  refine mul_lt_mul_of_pos_right ?_ hpow
  rcases lowerShare_cases m q with ⟨rfl, -, hshare⟩ | ⟨-, hshare⟩
  · rw [hshare]
    norm_num
  · rw [hshare, div_lt_iff₀ (by norm_num)]
    norm_num at hm ⊢
    linarith

theorem quarters_eq (m : Nat) (q : Int) : ((4 * m : ℕ) : ℚ) * 2 ^ (q - 2) = m * 2 ^ q := by
  rw [zpow_sub₀ two_ne_zero]
  push_cast
  ring

/-- The search for digits starts from a power of ten that is not above the float. -/
theorem shortest_exponent (hn : Normal m q) (hm : 0 < m) :
    (10 : ℚ) ^ decimalExponent (ratioOf (4 * m) (q - 2)).1 (ratioOf (4 * m) (q - 2)).2 ≤
      m * 2 ^ q := by
  have hvalue := quarters_eq m q
  have hpow : (0 : ℚ) < 2 ^ q := by positivity
  have hm₁ : (0 : ℚ) < m := by exact_mod_cast hm
  have hden := ratioOf_pos (4 * m) (q - 2)
  have hratio := ratioOf_eq (4 * m) (q - 2)
  rw [hvalue] at hratio
  have hnum : 0 < (ratioOf (4 * m) (q - 2)).1 := by
    rcases Nat.eq_zero_or_pos (ratioOf (4 * m) (q - 2)).1 with hzero | hpos
    · rw [hzero, Nat.cast_zero, zero_div] at hratio
      exact absurd hratio (mul_pos hm₁ hpow).ne
    · exact hpos
  have hsize : (Nat.log2 (ratioOf (4 * m) (q - 2)).1 : Int) - Nat.log2 (ratioOf (4 * m) (q - 2)).2
      ≤ 100000 := by
    have hguess := (binaryExponent_guess hnum hden rfl).1
    rw [hratio] at hguess
    have hlt : (m : ℚ) * 2 ^ q < 2 ^ (1024 : ℤ) := by
      have hm₂ : (m : ℚ) < 2 ^ (53 : ℤ) := by exact_mod_cast hn.bits
      calc (m : ℚ) * 2 ^ q < 2 ^ (53 : ℤ) * 2 ^ q := mul_lt_mul_of_pos_right hm₂ hpow
        _ = 2 ^ (53 + q) := (zpow_add₀ two_ne_zero _ _).symm
        _ ≤ 2 ^ (1024 : ℤ) := zpow_le_zpow_right₀ one_le_two (by have := hn.greatest; omega)
    have := (zpow_lt_zpow_iff_right₀ (one_lt_two (α := ℚ))).1 (hguess.trans_lt hlt)
    omega
  rw [← hratio]
  exact decimalExponent_le hnum hden hsize

theorem shortest_near (hn : Normal m q) (hm : 0 < m) :
    Near m q ((shortest m q).1 * 10 ^ (shortest m q).2) := by
  have hexponent := shortest_exponent hn hm
  have hlowEnd := lowerEnd_eq hm q
  have hhighEnd : ((4 * m + 2 : ℕ) : ℚ) * 2 ^ (q - 2) = (m + 1 / 2) * 2 ^ q := by
    rw [zpow_sub₀ two_ne_zero]
    push_cast
    norm_num
    ring
  have hvalue := quarters_eq m q
  rw [shortest]
  generalize (if m == pow2 52 && decide (-1074 < q) then 4 * m - 1 else 4 * m - 2) = lo
    at hlowEnd ⊢
  generalize decimalExponent (ratioOf (4 * m) (q - 2)).1 (ratioOf (4 * m) (q - 2)).2 = e
    at hexponent ⊢
  have hpow : (0 : ℚ) < 2 ^ q := by positivity
  have hten : (0 : ℚ) < 10 ^ (e - 16) := by positivity
  have hlow : (m - lowerShare m q) * 2 ^ q < m * 2 ^ q := by
    refine mul_lt_mul_of_pos_right ?_ hpow
    rcases lowerShare_cases m q with ⟨-, -, h⟩ | ⟨-, h⟩ <;> rw [h] <;> linarith
  have hhigh : (m : ℚ) * 2 ^ q < (m + 1 / 2) * 2 ^ q :=
    mul_lt_mul_of_pos_right (by linarith) hpow
  generalize hg : gridRatio (ratioOf (4 * m) (q - 2)).1 (ratioOf (4 * m) (q - 2)).2 (e - 16) = g
  have hfound : between lo (4 * m + 2) (q - 2) (m % 2 == 0) (e - 16) (g.1 / g.2) = true ∨
      between lo (4 * m + 2) (q - 2) (m % 2 == 0) (e - 16) (g.1 / g.2 + 1) = true := by
    have hplace := grid_eq (4 * m) (q - 2) (e - 16)
    rw [hg, hvalue, eq_div_iff hten.ne'] at hplace
    have hfloor : ((g.1 / g.2 : ℕ) : ℚ) = ⌊(g.1 : ℚ) / g.2⌋₊ := by rw [Nat.floor_div_eq_div]
    have hbelow : ((g.1 / g.2 : ℕ) : ℚ) * 10 ^ (e - 16) ≤ m * 2 ^ q := by
      rw [← hplace]
      exact mul_le_mul_of_nonneg_right Nat.cast_div_le hten.le
    have habove : (m : ℚ) * 2 ^ q < ((g.1 / g.2 : ℕ) + 1) * 10 ^ (e - 16) := by
      rw [← hplace, hfloor]
      exact mul_lt_mul_of_pos_right (Nat.lt_floor_add_one _) hten
    simp only [between_iff, hlowEnd, hhighEnd]
    rcases exists_grid_point hbelow habove hlow hhigh (grid_lt_gap hn.bits hexponent) with h | h
    · left
      split
      · exact ⟨h.1.le, h.2.le⟩
      · exact h
    · right
      split
      · exact ⟨h.1.le, h.2.le⟩
      · exact h
  have hinside := shortestFrom_between hg.symm hfound 17 1 rfl (by decide)
  rw [between_iff, hlowEnd, hhighEnd] at hinside
  split at hinside
  · next heven =>
    refine ⟨hinside.1, hinside.2, fun hodd => ?_⟩
    rw [beq_iff_eq] at heven
    omega
  · exact ⟨hinside.1.le, hinside.2.le, fun _ => hinside⟩

theorem dropZeros_eq (fuel d : Nat) (k : Int) :
    ((dropZeros fuel d k).1 : ℚ) * 10 ^ (dropZeros fuel d k).2 = d * 10 ^ k := by
  induction fuel generalizing d k with
  | zero => rfl
  | succ fuel ih =>
    rw [dropZeros]
    split
    · next h =>
      simp only [bne_iff_ne, ne_eq, Bool.and_eq_true, beq_iff_eq] at h
      have hd : d = d / 10 * 10 := by omega
      rw [ih, zpow_add_one₀ (by norm_num)]
      nth_rewrite 2 [hd]
      push_cast
      ring
    · rfl

theorem dropZeros_pos {d : Nat} (fuel : Nat) (k : Int) (hd : 0 < d) :
    0 < (dropZeros fuel d k).1 := by
  induction fuel generalizing d k with
  | zero => exact hd
  | succ fuel ih =>
    rw [dropZeros]
    split
    · next h =>
      simp only [bne_iff_ne, ne_eq, Bool.and_eq_true, beq_iff_eq] at h
      exact ih (k + 1) (by omega)
    · exact hd

end ScriptLang.Number
