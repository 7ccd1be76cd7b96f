import Lisp.Builtin
import Lisp.Number.Binary64
import Lisp.Number.Word

/-!
Arithmetic and order of numbers.  Machine integers are worked on as such and
widen to big integers where that overflows, and everything widens to a float
next to a float.  A big result is never narrowed again.  Integer division goes
to the floor.
-/

namespace Lisp

/-- A number of one of the three kinds. -/
inductive Number where
  | int (n : Int64)
  | big (n : Int)
  | float (x : Float)

namespace Number

/-- A number as a double; beyond the largest double, infinity. -/
def toFloat : Number → Float
  | .int n => Binary64.ofInt n.toInt
  | .big n => Binary64.ofInt n
  | .float x => x

/-- An operator on big integers. -/
def integerOp (op : ArithOp) (a b : Int) : Except Cause Int :=
  match op with
  | .add => .ok (a + b)
  | .sub => .ok (a - b)
  | .mul => .ok (a * b)
  | .div => if b = 0 then .error .divisionByZero else .ok (a.fdiv b)

/-- An operator on machine integers; if it overflows, there is no result.  Of
quotients only that of the least integer by minus one does. -/
def wordOp (op : ArithOp) (a b : Int64) : Except Cause (Option Int64) :=
  match op with
  | .add => .ok (Word.checked (a.toBitVec.saddOverflow b.toBitVec) (a + b))
  | .sub => .ok (Word.checked (a.toBitVec.ssubOverflow b.toBitVec) (a - b))
  | .mul => .ok (Word.checked (a.toBitVec.smulOverflow b.toBitVec) (a * b))
  | .div =>
      if b = 0 then
        .error .divisionByZero
      else
        .ok (Word.checked (a = Int64.minValue ∧ b = -1) (Word.floorDiv a b))

/-- An operator on machine integers, which are widened if it overflows. -/
def widenOp (op : ArithOp) (a b : Int64) : Except Cause Number :=
  match wordOp op a b with
  | .ok (some n) => .ok (.int n)
  | .ok none => (integerOp op a.toInt b.toInt).map .big
  | .error cause => .error cause

/-- An operator on doubles. -/
def floatOp (op : ArithOp) (a b : Float) : Except Cause Float :=
  match op with
  | .add => .ok (a + b)
  | .sub => .ok (a - b)
  | .mul => .ok (a * b)
  | .div => if b == 0.0 then .error .divisionByZero else .ok (a / b)

/-- An operator on numbers, each widened to the kind of the other. -/
def combine (op : ArithOp) : Number → Number → Except Cause Number
  | .int a, .int b => widenOp op a b
  | .int a, .big b => (integerOp op a.toInt b).map .big
  | .big a, .int b => (integerOp op a b.toInt).map .big
  | .big a, .big b => (integerOp op a b).map .big
  | .float a, b => (floatOp op a b.toFloat).map .float
  | a, .float b => (floatOp op a.toFloat b).map .float

/-- The order of two doubles; a NaN has none. -/
def floatOrder (a b : Float) : Option Ordering :=
  if a < b then some .lt
  else if b < a then some .gt
  else if a == b then some .eq
  else none

/-- The order of two numbers, each widened to the kind of the other. -/
def order : Number → Number → Option Ordering
  | .int a, .int b => some (compare a.toInt b.toInt)
  | .int a, .big b => some (compare a.toInt b)
  | .big a, .int b => some (compare a b.toInt)
  | .big a, .big b => some (compare a b)
  | .float a, b => floatOrder a b.toFloat
  | a, .float b => floatOrder a.toFloat b

end Number

end Lisp
