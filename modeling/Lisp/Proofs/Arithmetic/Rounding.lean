import Mathlib.Data.Int.Log
import Mathlib.Data.Rat.Floor
import Mathlib.Tactic.Linarith
import Mathlib.Tactic.Positivity
import Mathlib.Tactic.Ring
import Lisp.Number.Shortest

/-!
Rounding to the nearest double.  The result depends on the quotient alone, not on
the numbers it is written with, and a quotient that is a double is rounded to
itself.  So a decimal reads the same with zeros appended, and every finite double
is read back from its full expansion.
-/

namespace Lisp.Binary64

/-- An integer power as a quotient of natural ones. -/
theorem zpow_eq_div (b : ℚ) (e : Int) :
    b ^ e = b ^ e.toNat / b ^ (-e).toNat := by
  obtain ⟨n, rfl | rfl⟩ := e.eq_nat_or_neg <;> simp

/-- Shifting the parts of a quotient scales it by a power of two. -/
theorem shifted_quotient (num den : Nat) (e : Int) :
    ((num <<< e.toNat : Nat) : ℚ) / ((den <<< (-e).toNat : Nat) : ℚ) =
      num / den * 2 ^ e := by
  rw [zpow_eq_div, Nat.shiftLeft_eq, Nat.shiftLeft_eq]
  push_cast
  rw [mul_div_mul_comm]

theorem roundDiv_mul_left {k : Nat} (hk : 0 < k) (num den : Nat) :
    roundDiv (k * num) (k * den) = roundDiv num den := by
  have hwhole : k * num / (k * den) = num / den := Nat.mul_div_mul_left num den hk
  have hrest : 2 * (k * num % (k * den)) = k * (2 * (num % den)) := by
    rw [Nat.mul_mod_mul_left, Nat.mul_left_comm]
  simp only [roundDiv, hwhole, hrest, Nat.mul_lt_mul_left hk]

theorem roundDiv_one (num : Nat) : roundDiv num 1 = num := by
  simp [roundDiv, Nat.mod_one]

section Exponent

/-- The estimate of the exponent is compared with the quotient. -/
theorem shift_le_shift_iff (num : Nat) {den : Nat} (hden : 0 < den) (e : Int) :
    den <<< e.toNat ≤ num <<< (-e).toNat ↔ (2 : ℚ) ^ e ≤ num / den := by
  have hdenQ : (0 : ℚ) < den := Nat.cast_pos.mpr hden
  rw [zpow_eq_div, div_le_div_iff₀ (by positivity) hdenQ, Nat.shiftLeft_eq,
    Nat.shiftLeft_eq, Nat.mul_comm den]
  exact_mod_cast Iff.rfl

variable {num den : Nat}

/-- The lengths of two numbers give the exponent of their quotient up to one. -/
theorem log_quotient_bounds (hnum : 0 < num) (hden : 0 < den) :
    (num.log2 : Int) - den.log2 - 1 ≤ Int.log 2 ((num : ℚ) / den) ∧
      Int.log 2 ((num : ℚ) / den) ≤ (num.log2 : Int) - den.log2 := by
  have hnumQ : (0 : ℚ) < num := Nat.cast_pos.mpr hnum
  have hdenQ : (0 : ℚ) < den := Nat.cast_pos.mpr hden
  have hquotient : (0 : ℚ) < num / den := div_pos hnumQ hdenQ
  have hnumLow : (2 : ℚ) ^ num.log2 ≤ num :=
    mod_cast Nat.log2_self_le hnum.ne'
  have hnumHigh : (num : ℚ) < 2 ^ (num.log2 + 1) := mod_cast Nat.lt_log2_self
  have hdenLow : (2 : ℚ) ^ den.log2 ≤ den :=
    mod_cast Nat.log2_self_le hden.ne'
  have hdenHigh : (den : ℚ) < 2 ^ (den.log2 + 1) := mod_cast Nat.lt_log2_self
  have hlow : ((2 : ℕ) : ℚ) ^ ((num.log2 : Int) - den.log2 - 1) ≤ num / den := by
    calc ((2 : ℕ) : ℚ) ^ ((num.log2 : Int) - den.log2 - 1)
        = 2 ^ num.log2 / 2 ^ (den.log2 + 1) := by
          rw [sub_sub, zpow_sub₀ (by norm_num), ← Nat.cast_succ, zpow_natCast,
            zpow_natCast]
          rfl
      _ ≤ num / den := by gcongr
  have hhigh : (num : ℚ) / den < ((2 : ℕ) : ℚ) ^ ((num.log2 : Int) - den.log2 + 1) := by
    calc (num : ℚ) / den < 2 ^ (num.log2 + 1) / 2 ^ den.log2 := by gcongr
      _ = ((2 : ℕ) : ℚ) ^ ((num.log2 : Int) - den.log2 + 1) := by
          rw [sub_add_eq_add_sub, zpow_sub₀ (by norm_num), ← Nat.cast_succ,
            zpow_natCast, zpow_natCast]
          rfl
  constructor
  · exact (Int.zpow_le_iff_le_log one_lt_two hquotient).mp hlow
  · exact Int.lt_add_one_iff.mp ((Int.lt_zpow_iff_log_lt one_lt_two hquotient).mp hhigh)

/-- The binary exponent of a quotient is its logarithm. -/
theorem binaryExponent_eq_log (hnum : 0 < num) (hden : 0 < den) :
    binaryExponent num den = Int.log 2 ((num : ℚ) / den) := by
  have hquotient : (0 : ℚ) < num / den :=
    div_pos (Nat.cast_pos.mpr hnum) (Nat.cast_pos.mpr hden)
  obtain ⟨hlow, hhigh⟩ := log_quotient_bounds hnum hden
  have hstep := (shift_le_shift_iff num hden (num.log2 - den.log2)).trans
    (Int.zpow_le_iff_le_log one_lt_two hquotient)
  unfold binaryExponent
  dsimp only
  split
  · next h => exact le_antisymm (hstep.mp h) hhigh
  · next h =>
      have hless := not_le.mp (hstep.not.mp h)
      omega

end Exponent

/-- The rounding of a quotient does not depend on how it is written. -/
theorem nearest_mul_left {k den : Nat} (hk : 0 < k) (hden : 0 < den) (num : Nat) :
    nearest (k * num) (k * den) = nearest num den := by
  rcases Nat.eq_zero_or_pos num with rfl | hnum
  · simp [nearest]
  have hsame : ((k * num : Nat) : ℚ) / ((k * den : Nat) : ℚ) = num / den := by
    push_cast
    exact mul_div_mul_left _ _ (Nat.cast_ne_zero.mpr hk.ne')
  have hscale : scale (k * num) (k * den) = scale num den := by
    rw [scale, scale, binaryExponent_eq_log (Nat.mul_pos hk hnum) (Nat.mul_pos hk hden),
      binaryExponent_eq_log hnum hden, hsame]
  have hshift : ∀ n s : Nat, (k * n) <<< s = k * n <<< s := by
    intro n s
    rw [Nat.shiftLeft_eq, Nat.shiftLeft_eq, Nat.mul_assoc]
  simp only [nearest, hscale, hshift, roundDiv_mul_left hk,
    (Nat.mul_pos hk hnum).ne', hnum.ne']

/-- Equal quotients are rounded alike. -/
theorem nearest_congr {num den num' den' : Nat} (hden : 0 < den) (hden' : 0 < den')
    (hsame : num * den' = num' * den) : nearest num den = nearest num' den' := by
  calc nearest num den
      = nearest (den' * num) (den' * den) := (nearest_mul_left hden' hden num).symm
    _ = nearest (den * num') (den * den') := by
        rw [Nat.mul_comm den' num, hsame, Nat.mul_comm num' den, Nat.mul_comm den' den]
    _ = nearest num' den' := nearest_mul_left hden hden' num'

section Finite

/-- What a positive finite magnitude is made of: `significand * 2 ^ exponent`, with
a hidden bit unless the exponent is the least one. -/
structure Decoded (magnitude significand : Nat) (exponent : Int) : Prop where
  positive : 0 < significand
  bounded : significand < 2 ^ 53
  lowest : -1074 ≤ exponent
  highest : exponent ≤ 971
  normal : exponent = -1074 ∨ 2 ^ 52 ≤ significand
  packed : (exponent + 1074).toNat * hidden + significand = magnitude

variable {m : Nat}

theorem decoded_decode (hpositive : 0 < m) (hfinite : m < infinity) :
    Decoded m (decode m).1 (decode m).2 := by
  have hhidden : hidden = 2 ^ 52 := rfl
  have hsplit := Nat.div_add_mod m hidden
  have hrest : m % hidden < hidden := Nat.mod_lt m (by decide)
  have hbiased : m / hidden < 2047 := by
    rw [Nat.div_lt_iff_lt_mul (by decide)]
    exact hfinite
  unfold decode
  dsimp only
  generalize m / hidden = biased at *
  generalize m % hidden = rest at *
  split
  · next hzero =>
      rw [hzero, Nat.mul_zero, Nat.zero_add] at hsplit
      have hhighest : (-1074 : Int) ≤ 971 := by decide
      exact ⟨hpositive, by omega, le_rfl, hhighest, .inl rfl, by simp⟩
  · next hnonzero =>
      refine ⟨by omega, by omega, by omega, by omega, .inr (by omega), ?_⟩
      have hexponent : ((biased : Int) - 1075 + 1074).toNat + 1 = biased := by
        omega
      calc ((biased : Int) - 1075 + 1074).toNat * hidden + (hidden + rest)
          = (((biased : Int) - 1075 + 1074).toNat + 1) * hidden + rest := by
            ring
        _ = m := by rw [hexponent, Nat.mul_comm, hsplit]

variable {significand : Nat} {exponent : Int}

/-- The doubles around a double have its own exponent. -/
theorem Decoded.scale (hm : Decoded m significand exponent) :
    scale (significand <<< exponent.toNat) (1 <<< (-exponent).toNat) = exponent := by
  have hvalue := shifted_quotient significand 1 exponent
  rw [Nat.cast_one, div_one] at hvalue
  have hnum : 0 < significand <<< exponent.toNat := by
    rw [Nat.shiftLeft_eq]
    exact Nat.mul_pos hm.positive (Nat.two_pow_pos _)
  have hden : 0 < 1 <<< (-exponent).toNat := by
    rw [Nat.one_shiftLeft]
    exact Nat.two_pow_pos _
  have hpower : (0 : ℚ) < 2 ^ exponent := zpow_pos two_pos exponent
  have hpositive : (0 : ℚ) < significand * 2 ^ exponent :=
    mul_pos (Nat.cast_pos.mpr hm.positive) hpower
  have hupper : (significand : ℚ) * 2 ^ exponent < ((2 : ℕ) : ℚ) ^ (exponent + 53) := by
    rw [Nat.cast_ofNat, zpow_add₀ two_ne_zero, mul_comm]
    exact mul_lt_mul_of_pos_left (mod_cast hm.bounded) hpower
  have hhigh := (Int.lt_zpow_iff_log_lt one_lt_two hpositive).mp hupper
  rw [Binary64.scale, binaryExponent_eq_log hnum hden, hvalue]
  rcases hm.normal with rfl | hhidden
  · omega
  · have hlower : ((2 : ℕ) : ℚ) ^ (exponent + 52) ≤ significand * 2 ^ exponent := by
      rw [Nat.cast_ofNat, zpow_add₀ two_ne_zero, mul_comm (significand : ℚ)]
      exact mul_le_mul_of_nonneg_left (mod_cast hhidden) hpower.le
    have hlow := (Int.zpow_le_iff_le_log one_lt_two hpositive).mp hlower
    have hlowest := hm.lowest
    omega

/-- A finite magnitude is the one nearest to the number it stands for. -/
theorem nearest_toRatio (hpositive : 0 < m) (hfinite : m < infinity) :
    nearest (toRatio m).1 (toRatio m).2 = m := by
  have hm := decoded_decode hpositive hfinite
  unfold toRatio
  generalize decode m = parts at hm ⊢
  obtain ⟨significand, exponent⟩ := parts
  dsimp only at hm ⊢
  have hnum : significand <<< exponent.toNat ≠ 0 := by
    rw [Nat.shiftLeft_eq]
    exact (Nat.mul_pos hm.positive (Nat.two_pow_pos _)).ne'
  have hround : roundDiv (significand <<< exponent.toNat <<< (-exponent).toNat)
      (1 <<< (-exponent).toNat <<< exponent.toNat) = significand := by
    have hweight : 0 < 2 ^ exponent.toNat * 2 ^ (-exponent).toNat := by positivity
    simp only [Nat.shiftLeft_eq]
    calc roundDiv (significand * 2 ^ exponent.toNat * 2 ^ (-exponent).toNat)
          (1 * 2 ^ (-exponent).toNat * 2 ^ exponent.toNat)
        = roundDiv (2 ^ exponent.toNat * 2 ^ (-exponent).toNat * significand)
            (2 ^ exponent.toNat * 2 ^ (-exponent).toNat * 1) := by
          congr 1 <;> ring
      _ = significand := by rw [roundDiv_mul_left hweight, roundDiv_one]
  simp only [nearest, hnum, if_false, hm.scale, hround, hm.packed]
  exact Nat.min_eq_left hfinite.le

end Finite

section Decimals

/-- Within its range a decimal is rounded as the quotient it is. -/
theorem ofDecimal_eq_nearest {digits width : Nat} {exponent : Int}
    (hdigits : digits ≠ 0) (hlow : -324 < width + exponent)
    (hhigh : width + exponent < 310) :
    ofDecimal digits width exponent =
      nearest (digits * 10 ^ exponent.toNat) (10 ^ (-exponent).toNat) := by
  rw [ofDecimal, if_neg hdigits, if_neg (by omega), if_neg (by omega)]
  rfl

/-- Zeros appended to the digits, and counted in the exponent, do not matter. -/
theorem ofDecimal_append_zeros (digits width zeros : Nat) (exponent : Int) :
    ofDecimal (digits * 10 ^ zeros) (width + zeros) (exponent - zeros) =
      ofDecimal digits width exponent := by
  by_cases hdigits : digits = 0
  · simp [ofDecimal, hdigits]
  have hmore : digits * 10 ^ zeros ≠ 0 := by positivity
  have hwidth : ((width + zeros : Nat) : Int) + (exponent - zeros) =
      width + exponent := by
    push_cast
    ring
  simp only [ofDecimal, hdigits, hmore, hwidth, if_false]
  congr 2
  apply nearest_congr (Nat.pow_pos (by decide)) (Nat.pow_pos (by decide))
  have hpowers : zeros + (exponent - zeros).toNat + (-exponent).toNat =
      exponent.toNat + (-(exponent - zeros)).toNat := by omega
  calc digits * 10 ^ zeros * 10 ^ (exponent - zeros).toNat * 10 ^ (-exponent).toNat
      = digits * 10 ^ (zeros + (exponent - zeros).toNat + (-exponent).toNat) := by
        ring
    _ = digits * 10 ^ exponent.toNat * 10 ^ (-(exponent - zeros)).toNat := by
        rw [hpowers]
        ring

theorem ofDecimal_le (digits width : Nat) (exponent : Int) :
    ofDecimal digits width exponent ≤ infinity := by
  unfold ofDecimal nearest
  split_ifs
  · exact Nat.zero_le _
  · exact le_rfl
  · exact Nat.zero_le _
  · exact Nat.zero_le _
  · exact Nat.min_le_right _ _

end Decimals

end Lisp.Binary64

namespace Lisp.Decimal

open Binary64

theorem width_le_iff {n k : Nat} (hk : 0 < k) : width n ≤ k ↔ n < 10 ^ k :=
  Nat.length_toDigits_le_iff (by decide) hk

/-- Ninety-three binary digits are at most twenty-eight decimal ones. -/
theorem two_pow_le_ten_pow {r s : Nat} (hlast : 2 ^ r ≤ 10 ^ s) {k n e : Nat}
    (hk : k ≤ 93 * n + r) (he : 28 * n + s ≤ e) : 2 ^ k ≤ 10 ^ e := by
  have hsteps : (2 ^ 93) ^ n ≤ (10 ^ 28) ^ n := Nat.pow_le_pow_left (by decide) n
  calc 2 ^ k ≤ 2 ^ (93 * n + r) := Nat.pow_le_pow_right (by decide) hk
    _ = (2 ^ 93) ^ n * 2 ^ r := by rw [Nat.pow_add, Nat.pow_mul]
    _ ≤ (10 ^ 28) ^ n * 10 ^ s := Nat.mul_le_mul hsteps hlast
    _ = 10 ^ (28 * n + s) := by rw [Nat.pow_add, Nat.pow_mul]
    _ ≤ 10 ^ e := Nat.pow_le_pow_right (by decide) he

/-- The full expansion of a magnitude with `k` binary places has at most sixteen
digits before its point, and after it at most 323 zeros. -/
theorem width_fraction {significand k : Nat} (hpositive : 0 < significand)
    (hbounded : significand < 2 ^ 53) (hk : k ≤ 1074) :
    width (significand * 5 ^ k) ≤ 16 + k ∧ k < width (significand * 5 ^ k) + 324 := by
  constructor
  · rw [width_le_iff (by omega), Nat.pow_add]
    have hleft : significand < 10 ^ 16 := hbounded.trans (by decide)
    exact Nat.mul_lt_mul_of_lt_of_le hleft (Nat.pow_le_pow_left (by decide) k)
      (Nat.pow_pos (by decide))
  · by_contra hshort
    have hpos : 0 < width (significand * 5 ^ k) := Nat.length_toDigits_pos
    have hsmall : significand * 5 ^ k < 10 ^ (k - 324) :=
      (width_le_iff (by omega)).mp (by omega)
    have hlast : 2 ^ 51 ≤ 10 ^ 16 := by decide
    have htwo : 2 ^ k ≤ 10 ^ 324 := two_pow_le_ten_pow (n := 11) hlast hk le_rfl
    have hlarge : 10 ^ (k - 324) * 2 ^ k ≤ 5 ^ k * 2 ^ k := by
      calc 10 ^ (k - 324) * 2 ^ k ≤ 10 ^ (k - 324) * 10 ^ 324 :=
            Nat.mul_le_mul_left _ htwo
        _ = 10 ^ k := by rw [← Nat.pow_add, Nat.sub_add_cancel (by omega)]
        _ = 5 ^ k * 2 ^ k := by rw [← Nat.mul_pow]
    have hfive : 10 ^ (k - 324) ≤ 5 ^ k :=
      Nat.le_of_mul_le_mul_right hlarge (Nat.two_pow_pos k)
    have hmore : 5 ^ k ≤ significand * 5 ^ k := Nat.le_mul_of_pos_left _ hpositive
    omega

theorem toMagnitude_fraction {significand k : Nat} (hpositive : 0 < significand)
    (hbounded : significand < 2 ^ 53) (hk : k ≤ 1074) :
    toMagnitude ⟨significand * 5 ^ k, -k⟩ = nearest significand (2 ^ k) := by
  obtain ⟨hhigh, hlow⟩ := width_fraction hpositive hbounded hk
  have hdigits : significand * 5 ^ k ≠ 0 :=
    (Nat.mul_pos hpositive (Nat.pow_pos (by decide))).ne'
  have hread : toMagnitude ⟨significand * 5 ^ k, -k⟩ =
      nearest (significand * 5 ^ k * 10 ^ (-k : Int).toNat) (10 ^ (- -k : Int).toNat) :=
    ofDecimal_eq_nearest hdigits (by dsimp only; omega) (by dsimp only; omega)
  rw [hread, Int.toNat_neg_natCast, neg_neg, Int.toNat_natCast]
  apply nearest_congr (Nat.pow_pos (by decide)) (Nat.two_pow_pos k)
  rw [Nat.pow_zero, Nat.mul_one, Nat.mul_assoc, ← Nat.mul_pow]

theorem toMagnitude_whole {digits : Nat} (hpositive : 0 < digits)
    (hbounded : digits < 10 ^ 309) : toMagnitude ⟨digits, 0⟩ = nearest digits 1 := by
  have hwidth : width digits ≤ 309 := (width_le_iff (by decide)).mpr hbounded
  have hread : toMagnitude ⟨digits, 0⟩ =
      nearest (digits * 10 ^ (0 : Int).toNat) (10 ^ (-0 : Int).toNat) :=
    ofDecimal_eq_nearest hpositive.ne' (by dsimp only; omega) (by dsimp only; omega)
  rw [hread, Int.neg_zero, Int.toNat_zero, Nat.pow_zero, Nat.mul_one]

/-- The full expansion of a finite magnitude reads back. -/
theorem readsAs_exact {m : Nat} (hpositive : 0 < m) (hfinite : m < infinity) :
    readsAs m (exact m) = true := by
  have hm := decoded_decode hpositive hfinite
  have hnearest := nearest_toRatio hpositive hfinite
  rw [readsAs, beq_iff_eq]
  unfold toRatio at hnearest
  unfold exact
  generalize decode m = parts at hm hnearest ⊢
  obtain ⟨significand, exponent⟩ := parts
  dsimp only at hm hnearest ⊢
  have hlowest := hm.lowest
  have hhighest := hm.highest
  split
  · next hnegative =>
      obtain ⟨k, rfl⟩ : ∃ k : Nat, exponent = -k := ⟨(-exponent).toNat, by omega⟩
      rw [Int.toNat_neg_natCast, neg_neg, Int.toNat_natCast, Nat.shiftLeft_zero,
        Nat.one_shiftLeft] at hnearest
      rw [neg_neg, Int.toNat_natCast]
      exact (toMagnitude_fraction hm.positive hm.bounded (by omega)).trans hnearest
  · next hwhole =>
      obtain ⟨k, rfl⟩ : ∃ k : Nat, exponent = k := ⟨exponent.toNat, by omega⟩
      rw [Int.toNat_natCast, Int.toNat_neg_natCast, Nat.shiftLeft_zero] at hnearest
      rw [Int.toNat_natCast]
      have hpositive : 0 < significand <<< k := by
        rw [Nat.shiftLeft_eq]
        exact Nat.mul_pos hm.positive (Nat.two_pow_pos k)
      have hbounded : significand <<< k < 10 ^ 309 := by
        have hlast : 2 ^ 1 ≤ 10 ^ 1 := by decide
        calc significand <<< k = significand * 2 ^ k := Nat.shiftLeft_eq _ _
          _ < 2 ^ 53 * 2 ^ k :=
              Nat.mul_lt_mul_of_pos_right hm.bounded (Nat.two_pow_pos k)
          _ = 2 ^ (53 + k) := (Nat.pow_add 2 53 k).symm
          _ ≤ 10 ^ 309 := two_pow_le_ten_pow (n := 11) hlast (by omega) le_rfl
      exact (toMagnitude_whole hpositive hbounded).trans hnearest

/-- The shortest text of a positive finite magnitude reads back. -/
theorem toMagnitude_shortest {m : Nat} (hpositive : 0 < m) (hfinite : m < infinity) :
    (shortest m).toMagnitude = m :=
  beq_iff_eq.mp (readsAs_shortest (readsAs_exact hpositive hfinite))

end Lisp.Decimal
