import Lisp.Number.Basic
import Lisp.Value.Basic

/-!
Arithmetic and order of values that are numbers.
-/

namespace Lisp

variable {H : Type}

/-- The number a value is. -/
def Value.number? : Value H → Option Number
  | .int n => some (.int n)
  | .big n => some (.big n)
  | .float x => some (.float x)
  | _ => none

/-- A number as a value. -/
def Value.ofNumber : Number → Value H
  | .int n => .int n
  | .big n => .big n
  | .float x => .float x

/-- An operator applied to two values. -/
def Value.arithmetic (op : ArithOp) (a b : Value H) : Except Cause (Value H) :=
  match a.number?, b.number? with
  | some x, some y => (x.combine op y).map .ofNumber
  | _, _ => .error (.cannotCombine op.verb a.typeName b.typeName)

/-- The order of two values that are numbers. -/
def Value.order (a b : Value H) : Except Cause (Option Ordering) :=
  match a.number?, b.number? with
  | some x, some y => .ok (x.order y)
  | _, _ => .error (.cannotOrder a.typeName b.typeName)

end Lisp
