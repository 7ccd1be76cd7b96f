import Lisp.Value.Numeric

/-!
Two equalities.  Strict equality asks for the same kind and the same content:
cells are compared by content, closures and macros by identity, native
procedures by name.  Equality as programs see it compares numbers across kinds
and refuses values that cannot be compared.  Places never matter.

Both keep a list of what is still to be compared, so values may nest to any
depth, and both take one cell to equal itself without a look inside.
-/

namespace Lisp

variable {H : Type}

/-- Strict equality of everything but the content of cells. -/
def Value.sameAtom : Value H → Value H → Bool
  | .nil, .nil => true
  | .bool a, .bool b => a == b
  | .int a, .int b => a == b
  | .big a, .big b => a == b
  | .float a, .float b => a == b
  | .str a, .str b => a == b
  | .ref a _, .ref b _ => a == b
  | .closure a _ _ _, .closure b _ _ _ => a == b
  | .expander a _ _, .expander b _ _ => a == b
  | .native a, .native b => a.name == b.name
  | _, _ => false

/-- Strict equality of each pair of values in turn.  One cell equals itself
without a look inside. -/
def identicalAll : List (Value H × Value H) → Bool
  | [] => true
  | (.pair i a d _, .pair j b e _) :: todo =>
      if i = j then
        identicalAll todo
      else
        identicalAll ((a, b) :: (d, e) :: todo)
  | (a, b) :: todo => a.sameAtom b && identicalAll todo
termination_by todo => weigh (fun p => p.1.size) todo
decreasing_by
  all_goals simp only [weigh, Value.size]
  · omega
  · omega
  · have := a.size_pos
    omega

/-- Strict equality of values. -/
def Value.identical (a b : Value H) : Bool :=
  identicalAll [(a, b)]

/-- Equality of two values that are not both cells.  The empty list can be
compared with anything. -/
def Value.equalAtom : Value H → Value H → Except Cause Bool
  | .nil, b => .ok b.isNil
  | a, .nil => .ok a.isNil
  | .str a, .str b => .ok (a == b)
  | .bool a, .bool b => .ok (a == b)
  | .ref a _, .ref b _ => .ok (a == b)
  | a, b =>
      match a.number?, b.number? with
      | some x, some y => .ok (x.order y == some .eq)
      | _, _ => .error (.cannotCompare a.typeName b.typeName)

/-- Whether a value is a cell. -/
def Value.isPair : Value H → Bool
  | .pair _ _ _ _ => true
  | _ => false

/-- Equality of each pair of values in turn, up to the first difference.  The
flag marks the remaining chains of two lists: one that ends before the other
is a difference, not an error.  One cell equals itself without a look
inside. -/
def equalAll : List (Value H × Value H × Bool) → Except Cause Bool
  | [] => .ok true
  | (.pair i a d _, .pair j b e _, _) :: todo =>
      if i = j then
        equalAll todo
      else
        equalAll ((a, b, false) :: (d, e, true) :: todo)
  | (a, b, inTail) :: todo =>
      if inTail && (a.isPair || b.isPair) then
        .ok false
      else
        match a.equalAtom b with
        | .ok true => equalAll todo
        | .ok false => .ok false
        | .error cause => .error cause
termination_by todo => weigh (fun p => p.1.size) todo
decreasing_by
  all_goals simp only [weigh, Value.size]
  · omega
  · omega
  · have := a.size_pos
    omega

/-- Equality as programs see it. -/
def Value.equal (a b : Value H) : Except Cause Bool :=
  equalAll [(a, b, false)]

end Lisp
