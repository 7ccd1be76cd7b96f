import Lisp.Datum.Basic
import Lisp.Number.Binary64
import Lisp.Number.Word

/-!
What an atom stands for.  An atom is a truth value, an integer or a
floating-point number if it is spelled like one, and a name otherwise.
-/

namespace Lisp

/-- Split an optional sign off the front: whether it is a minus, and the
rest. -/
def splitSign : List Char → Bool × List Char
  | '-' :: rest => (true, rest)
  | '+' :: rest => (false, rest)
  | rest => (false, rest)

/-- The number a run of decimal digits stands for. -/
def decimalNumber (digits : List Char) : Nat :=
  digits.foldl (fun n c => 10 * n + (c.toNat - 48)) 0

/-- The integer an atom denotes: an optional sign and at least one digit. -/
def integer? (text : List Char) : Option Int :=
  let (negative, digits) := splitSign text
  if digits ≠ [] ∧ digits.all Char.isDigit then
    some (if negative then -(decimalNumber digits : Int)
      else (decimalNumber digits : Int))
  else
    none

/-- The exponent part of a floating-point atom: nothing, or a mark followed by
an optional sign and at least one digit. -/
def exponent? : List Char → Option Int
  | [] => some 0
  | mark :: rest =>
      if mark = 'e' ∨ mark = 'E' then integer? rest else none

/-- The digits of a floating-point atom before and after its point, and its
exponent.  There must be a digit before the point, or else one right after
it. -/
def floatParts? (text : List Char) : Option (List Char × List Char × Int) :=
  let whole := text.takeWhile Char.isDigit
  match text.dropWhile Char.isDigit with
  | '.' :: rest =>
      let fraction := rest.takeWhile Char.isDigit
      if whole = [] ∧ fraction = [] then
        none
      else
        (exponent? (rest.dropWhile Char.isDigit)).map (whole, fraction, ·)
  | rest =>
      if whole = [] then none else (exponent? rest).map (whole, [], ·)

/-- The double nearest to what a floating-point atom denotes. -/
def float? (text : List Char) : Option Float :=
  let (negative, unsigned) := splitSign text
  (floatParts? unsigned).map fun (whole, fraction, exponent) =>
    let digits := (whole ++ fraction).dropWhile (· == '0')
    Binary64.ofMagnitude negative
      (Binary64.ofDecimal (decimalNumber digits) digits.length
        (exponent - fraction.length))

/-- An atom as a literal, if it is one, and otherwise as a name. -/
def Datum.ofAtom (text : String) (place : Location) : Datum :=
  if text = "#t" then .bool true
  else if text = "#f" then .bool false
  else
    match integer? text.toList with
    | some n => if fitsWord n then .int (Int64.ofInt n) else .big n
    | none =>
        match float? text.toList with
        | some x => .float x
        | none => .ref text (some place)

end Lisp
