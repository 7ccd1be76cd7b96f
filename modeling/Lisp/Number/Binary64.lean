/-!
The nearest double to an exact quotient, and the double for an integer.  A
magnitude is the bit pattern of a double without its sign: magnitudes are
ordered as the numbers they stand for, and the one after the largest finite
magnitude is infinity.

An integer of more than 64 bits is rounded by its leading 64 bits.  Of the bits
cut off only some are sampled, so halfway between two doubles the even one is
chosen although an unsampled bit is set.
-/

namespace Lisp.Binary64

/-- The weight of the hidden bit of a normal significand. -/
def hidden : Nat := 1 <<< 52

/-- The magnitude of infinity. -/
def infinity : Nat := 2047 * hidden

/-- The quotient rounded to the nearest natural number, a half to the even
neighbour. -/
def roundDiv (num den : Nat) : Nat :=
  let whole := num / den
  let twice := 2 * (num % den)
  if twice < den then
    whole
  else if den < twice then
    whole + 1
  else
    whole + whole % 2

/-- The exponent `e` with `2 ^ e ≤ num / den < 2 ^ (e + 1)`, for a positive
quotient. -/
def binaryExponent (num den : Nat) : Int :=
  let estimate : Int := (num.log2 : Int) - (den.log2 : Int)
  if den <<< estimate.toNat ≤ num <<< (-estimate).toNat then
    estimate
  else
    estimate - 1

/-- The weight `2 ^ scale` of the last bit of the doubles around a positive
quotient. -/
def scale (num den : Nat) : Int :=
  max (binaryExponent num den - 52) (-1074)

/-- The magnitude nearest to `num / den`, of two the even one. -/
def nearest (num den : Nat) : Nat :=
  if num = 0 then
    0
  else
    let q := scale num den
    let significand := roundDiv (num <<< (-q).toNat) (den <<< q.toNat)
    min ((q + 1074).toNat * hidden + significand) infinity

/-- A finite magnitude as `significand * 2 ^ exponent`. -/
def decode (magnitude : Nat) : Nat × Int :=
  let biased := magnitude / hidden
  if biased = 0 then
    (magnitude, -1074)
  else
    (hidden + magnitude % hidden, (biased : Int) - 1075)

/-- A finite magnitude as an exact quotient. -/
def toRatio (magnitude : Nat) : Nat × Nat :=
  let (significand, exponent) := decode magnitude
  (significand <<< exponent.toNat, 1 <<< (-exponent).toNat)

/-- The double with a given sign and magnitude. -/
def ofMagnitude (negative : Bool) (magnitude : Nat) : Float :=
  Float.ofBits (UInt64.ofNat ((if negative then 1 <<< 63 else 0) + magnitude))

/-- The magnitude of a double. -/
def magnitude (x : Float) : Nat :=
  x.toBits.toNat % (1 <<< 63)

/-- Whether the sign bit of a double is set. -/
def isNegative (x : Float) : Bool :=
  1 <<< 63 ≤ x.toBits.toNat

/-- Whether a sampled bit among the last `cut` bits is set.  The cut leaves
some last bits of the 64-bit word it goes through, and just as many last bits
are sampled of that word and of every word below it. -/
def sticky (n cut : Nat) : Bool :=
  let width := (cut - 1) % 64 + 1
  (List.range ((cut + 63) / 64)).any fun word => (n >>> (64 * word)) % (1 <<< width) != 0

/-- An integer with all but its leading 64 bits cleared.  The last bit kept is
also set when a sampled bit below it is. -/
def leading (n : Nat) : Nat :=
  let cut := n.log2 - 63
  let kept := n >>> cut
  (if sticky n cut then kept ||| 1 else kept) <<< cut

/-- The double for an integer: the nearest one to its leading bits, and beyond
the largest double infinity. -/
def ofInt (n : Int) : Float :=
  ofMagnitude (decide (n < 0)) (nearest (leading n.natAbs) 1)

/-- The magnitude nearest to `digits * 10 ^ exponent`, where `width` is the
number of decimal digits of `digits`.  Numbers far out of range are answered
without computing the power. -/
def ofDecimal (digits width : Nat) (exponent : Int) : Nat :=
  if digits = 0 then
    0
  else if 310 ≤ (width : Int) + exponent then
    infinity
  else if (width : Int) + exponent ≤ -324 then
    0
  else
    nearest (digits * Nat.pow 10 exponent.toNat) (Nat.pow 10 (-exponent).toNat)

end Lisp.Binary64
