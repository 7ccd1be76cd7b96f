import Lisp.Number.Binary64

/-!
The text of a double: the fewest decimal digits that read back as it, and among
those the ones nearest to it.
-/

namespace Lisp

/-- A positive decimal `digits * 10 ^ exponent`. -/
structure Decimal where
  digits : Nat
  exponent : Int
  deriving Repr, DecidableEq, Inhabited

namespace Decimal

/-- How many decimal digits a number is written with. -/
def width (n : Nat) : Nat :=
  (Nat.toDigits 10 n).length

/-- The magnitude a decimal reads as. -/
def toMagnitude (d : Decimal) : Nat :=
  Binary64.ofDecimal d.digits (width d.digits) d.exponent

/-- The exponent `e` with `10 ^ e ≤ num / den < 10 ^ (e + 1)`, for a positive
quotient. -/
def leading (num den : Nat) : Int :=
  if den ≤ num then
    (width (num / den) : Int) - 1
  else
    let places := width (den / num)
    if den ≤ num * Nat.pow 10 (places - 1) then 1 - (places : Int) else -(places : Int)

/-- The decimals on the grid `10 ^ step` on either side of a magnitude, the
nearer one first; of two at the same distance the upper one. -/
def neighbours (magnitude : Nat) (step : Int) : List Decimal :=
  let (num, den) := Binary64.toRatio magnitude
  let num := num * Nat.pow 10 (-step).toNat
  let den := den * Nat.pow 10 step.toNat
  let lower := num / den
  let below : Decimal := ⟨lower, step⟩
  let above : Decimal := ⟨lower + 1, step⟩
  if 2 * (num % den) < den then [below, above] else [above, below]

/-- A finite magnitude written out in full. -/
def exact (magnitude : Nat) : Decimal :=
  let (significand, exponent) := Binary64.decode magnitude
  if exponent < 0 then
    ⟨significand * Nat.pow 5 (-exponent).toNat, exponent⟩
  else
    ⟨significand <<< exponent.toNat, 0⟩

/-- Whether a decimal reads back as a magnitude. -/
def readsAs (magnitude : Nat) (d : Decimal) : Bool :=
  d.toMagnitude == magnitude

/-- The first decimal that reads back as a magnitude on grids of one, two and
up to seventeen digits, which are always enough; `top` is the exponent of the
leading digit. -/
def search (magnitude : Nat) (top : Int) : Option Decimal :=
  (List.range 17).findSome? fun more : Nat =>
    (neighbours magnitude (top - more)).find? (readsAs magnitude)

/-- The shortest decimal that reads back as a positive finite magnitude. -/
def shortest (magnitude : Nat) : Decimal :=
  let (num, den) := Binary64.toRatio magnitude
  (search magnitude (leading num den)).getD (exact magnitude)

theorem readsAs_of_search {magnitude : Nat} {top : Int} {d : Decimal}
    (hfound : search magnitude top = some d) : readsAs magnitude d = true := by
  obtain ⟨_, _, hreads⟩ := List.exists_of_findSome?_eq_some hfound
  exact List.find?_some hreads

/-- The shortest decimal reads back, as long as the full expansion does. -/
theorem readsAs_shortest {magnitude : Nat}
    (hfull : readsAs magnitude (exact magnitude) = true) :
    readsAs magnitude (shortest magnitude) = true := by
  unfold shortest
  dsimp only
  cases hfound : search magnitude _ with
  | none => exact hfull
  | some d => exact readsAs_of_search hfound

end Decimal

/-- The decisions a number format makes about doubles. -/
structure FloatFormat where
  /-- The least exponent of the leading digit that is written positionally. -/
  lowest : Int
  /-- The greatest exponent of the leading digit that is written
  positionally. -/
  highest : Int
  /-- What follows the last digit of a number without a fraction. -/
  whole : String
  /-- What stands before the exponent. -/
  mark : String
  infinity : String
  notANumber : String
  deriving Repr

namespace FloatFormat

/-- Digits with a point after the first `count` of them. -/
def pointAfter (count : Nat) (digits : List Char) : String :=
  String.ofList (digits.take count) ++ "." ++ String.ofList (digits.drop count)

/-- A decimal with significant digits `digits`, the first of which has exponent
`leading`. -/
def place (format : FloatFormat) (digits : List Char) (leading : Int) : String :=
  if leading < format.lowest ∨ format.highest < leading then
    (if digits.length ≤ 1 then String.ofList digits
      else pointAfter 1 digits) ++ format.mark ++ toString leading
  else if leading < 0 then
    "0." ++ String.ofList (List.replicate (-leading - 1).toNat '0' ++ digits)
  else if digits.length ≤ leading.toNat + 1 then
    String.ofList
      (digits ++ List.replicate (leading.toNat + 1 - digits.length) '0') ++
        format.whole
  else
    pointAfter (leading.toNat + 1) digits

/-- Drop the zeros at the end, but keep the first digit. -/
def significant (digits : List Char) : List Char :=
  match (digits.reverse.dropWhile (· == '0')).reverse with
  | [] => digits.take 1
  | kept => kept

/-- The text of a finite magnitude. -/
def finite (format : FloatFormat) (magnitude : Nat) : String :=
  if magnitude = 0 then
    "0" ++ format.whole
  else
    let d := Decimal.shortest magnitude
    let digits := Nat.toDigits 10 d.digits
    format.place (significant digits) (d.exponent + digits.length - 1)

/-- The text of a double. -/
def text (format : FloatFormat) (x : Float) : String :=
  let magnitude := Binary64.magnitude x
  if Binary64.infinity < magnitude then
    format.notANumber
  else
    (if Binary64.isNegative x then "-" else "") ++
      if magnitude = Binary64.infinity then format.infinity
      else format.finite magnitude

end FloatFormat

end Lisp
