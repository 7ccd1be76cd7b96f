import Mathlib
import Lisp.Number.Binary64

/-!
The sign and the magnitude of a double.  Together they are its bits, and the
magnitude alone tells the infinite doubles, and the one that is not a number, from
all others.
-/

namespace Lisp.Binary64

open Float.Model

section Fields

variable (b : BitVec Format.binary64.numBits)

/-- The exponent field of some bits is full just from infinity on. -/
theorem unpackExponent_eq_iff :
    UnpackedFloat.unpackExponent b = -1#_ ↔ infinity ≤ b.toNat % 2 ^ 63 := by
  rw [UnpackedFloat.unpackExponent_def, ← BitVec.toNat_inj,
    BitVec.extractLsb'_toNat, Nat.shiftRight_eq_div_pow]
  change b.toNat / 2 ^ 52 % 2 ^ 11 = 2047 ↔ 2047 * 2 ^ 52 ≤ b.toNat % 2 ^ 63
  omega

theorem unpackMantissa_eq_iff :
    UnpackedFloat.unpackMantissa b = 0#_ ↔ b.toNat % 2 ^ 52 = 0 := by
  rw [UnpackedFloat.unpackMantissa_def, ← BitVec.toNat_inj,
    BitVec.extractLsb'_toNat, Nat.shiftRight_zero]
  rfl

theorem isNaNBits_iff :
    UnpackedFloat.isNaNBits b = true ↔ infinity < b.toNat % 2 ^ 63 := by
  have hinfinity : infinity = 2047 * 2 ^ 52 := rfl
  rw [UnpackedFloat.isNaNBits, decide_eq_true_iff, unpackExponent_eq_iff, ne_eq,
    unpackMantissa_eq_iff]
  omega

theorem isNaN_unpack_iff :
    (UnpackedFloat.unpack Format.binary64 b).isNaN = true ↔
      infinity < b.toNat % 2 ^ 63 := by
  rw [← isNaNBits_iff, UnpackedFloat.isNaNBits, decide_eq_true_iff]
  unfold UnpackedFloat.unpack
  dsimp only
  split_ifs <;> simp_all [UnpackedFloat.isNaN]

theorem isInf_unpack_iff :
    (UnpackedFloat.unpack Format.binary64 b).isInf = true ↔
      b.toNat % 2 ^ 63 = infinity := by
  have hinfinity : infinity = 2047 * 2 ^ 52 := rfl
  have hfields : UnpackedFloat.unpackExponent b = -1#_ ∧
      UnpackedFloat.unpackMantissa b = 0#_ ↔ b.toNat % 2 ^ 63 = infinity := by
    rw [unpackExponent_eq_iff, unpackMantissa_eq_iff]
    omega
  rw [← hfields]
  unfold UnpackedFloat.unpack
  dsimp only
  split_ifs <;> simp_all [UnpackedFloat.isInf]

end Fields

theorem isNaN_iff (x : Float) : x.isNaN = true ↔ infinity < magnitude x :=
  isNaN_unpack_iff x.toBits.toBitVec

theorem isInf_iff (x : Float) : x.isInf = true ↔ magnitude x = infinity :=
  isInf_unpack_iff x.toBits.toBitVec

/-- Bits up to those of infinity are kept. -/
theorem toBits_ofBits {b : UInt64} (hb : b.toNat % 2 ^ 63 ≤ infinity) :
    (Float.ofBits b).toBits = b := by
  have hpack := @UnpackedFloat.pack_unpack Format.binary64 b.toBitVec (by decide)
  rw [if_neg ((isNaNBits_iff b.toBitVec).not.mpr (not_lt.mpr hb))] at hpack
  exact congrArg UInt64.ofBitVec hpack

/-- A double is made of its sign and its magnitude. -/
theorem ofMagnitude_magnitude (x : Float) :
    ofMagnitude (isNegative x) (magnitude x) = x := by
  have hlimit : x.toBits.toNat < 2 ^ 64 := x.toBits.toNat_lt
  have hbits : (if isNegative x then 1 <<< 63 else 0) + magnitude x = x.toBits.toNat := by
    simp only [isNegative, magnitude, decide_eq_true_eq, Nat.one_shiftLeft]
    split <;> omega
  rw [ofMagnitude, hbits, UInt64.ofNat_toNat, Float.ofBits_toBits]

/-- Up to infinity, a double has the sign and the magnitude it is made of. -/
theorem toNat_toBits_ofMagnitude (negative : Bool) {m : Nat} (hm : m ≤ infinity) :
    (ofMagnitude negative m).toBits.toNat = (if negative then 1 <<< 63 else 0) + m := by
  have hinfinity : infinity = 2047 * 2 ^ 52 := rfl
  have hsmall : (if negative then 1 <<< 63 else 0) + m < 2 ^ 64 := by
    split <;> omega
  have hnat := UInt64.toNat_ofNat_of_lt' hsmall
  rw [ofMagnitude, toBits_ofBits, hnat]
  rw [hnat]
  split <;> omega

theorem magnitude_ofMagnitude (negative : Bool) {m : Nat} (hm : m ≤ infinity) :
    magnitude (ofMagnitude negative m) = m := by
  have hinfinity : infinity = 2047 * 2 ^ 52 := rfl
  rw [magnitude, toNat_toBits_ofMagnitude negative hm, Nat.one_shiftLeft]
  split <;> omega

theorem isNaN_ofMagnitude (negative : Bool) {m : Nat} (hm : m ≤ infinity) :
    (ofMagnitude negative m).isNaN = false := by
  rw [← Bool.not_eq_true, isNaN_iff, magnitude_ofMagnitude negative hm]
  exact not_lt.mpr hm

end Lisp.Binary64
