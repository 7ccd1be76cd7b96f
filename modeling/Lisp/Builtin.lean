import Lisp.Fault

/-!
The vocabulary of builtin procedures: which there are, under what names, how
many operands each takes, and which receive their operands unevaluated.
-/

namespace Lisp

/-- The operand counts a procedure accepts. -/
inductive Arity where
  | exact (count : Nat)
  | atLeast (count : Nat)
  | any
  deriving Repr, DecidableEq, Inhabited

/-- Whether `count` operands are acceptable. -/
def Arity.accepts : Arity → Nat → Bool
  | .exact n, count => count == n
  | .atLeast n, count => n ≤ count
  | .any, _ => true

/-- The expected count, as reports put it. -/
def Arity.expected : Arity → String
  | .exact n => toString n
  | .atLeast n => "at least " ++ toString n
  | .any => "any number of"

/-- Refuse an operand count that is not acceptable. -/
def Arity.check (arity : Arity) (count : Nat) : Except Cause Unit :=
  if arity.accepts count then
    .ok ()
  else
    .error (.wrongArity arity.expected count)

/-- The arithmetic operators. -/
inductive ArithOp where
  | add
  | sub
  | mul
  | div
  deriving Repr, DecidableEq, Inhabited

/-- What an operator does, as a verb. -/
def ArithOp.verb : ArithOp → String
  | .add => "add"
  | .sub => "subtract"
  | .mul => "multiply"
  | .div => "divide"

/-- The numeric order predicates. -/
inductive Comparison where
  | lt
  | gt
  | le
  | ge
  | eq
  deriving Repr, DecidableEq, Inhabited

/-- Whether an ordering satisfies a predicate; operands without an order
satisfy none. -/
def Comparison.holds : Comparison → Option Ordering → Bool
  | _, none => false
  | .lt, some order => order == .lt
  | .gt, some order => order == .gt
  | .le, some order => order != .gt
  | .ge, some order => order != .lt
  | .eq, some order => order == .eq

/-- The builtin procedures and special forms. -/
inductive Builtin where
  | arith (op : ArithOp)
  | compare (test : Comparison)
  | equal
  | car
  | cdr
  | cons
  | list
  | display
  | repr
  | quote
  | define
  | assign
  | lambda
  | createMacro
  | defineMacro
  | sequence
  | conditional
  deriving Repr, DecidableEq, Inhabited

/-- The name a builtin is bound to in a fresh session. -/
def Builtin.name : Builtin → String
  | .arith .add => "+"
  | .arith .sub => "-"
  | .arith .mul => "*"
  | .arith .div => "/"
  | .compare .lt => "<"
  | .compare .gt => ">"
  | .compare .le => "<="
  | .compare .ge => ">="
  | .compare .eq => "="
  | .equal => "equal"
  | .car => "car"
  | .cdr => "cdr"
  | .cons => "cons"
  | .list => "list"
  | .display => "display"
  | .repr => "repr"
  | .quote => "quote"
  | .define => "define"
  | .assign => "set!"
  | .lambda => "lambda"
  | .createMacro => "create-macro"
  | .defineMacro => "defmacro"
  | .sequence => "begin"
  | .conditional => "if"

/-- The operand count a builtin declares. -/
def Builtin.arity : Builtin → Arity
  | .arith _ | .compare _ | .equal | .cons => .exact 2
  | .car | .cdr | .repr | .quote => .exact 1
  | .define | .assign | .lambda | .createMacro => .exact 2
  | .defineMacro | .conditional => .exact 3
  | .list | .display | .sequence => .any

/-- Whether a builtin is handed the values of its operands rather than the
operand forms. -/
def Builtin.evaluatesOperands : Builtin → Bool
  | .arith _ | .compare _ | .equal | .car | .cdr | .cons | .list | .display
  | .repr => true
  | .quote | .define | .assign | .lambda | .createMacro | .defineMacro
  | .sequence | .conditional => false

/-- All builtins, in the order they are listed to users. -/
def Builtin.all : List Builtin :=
  [.arith .add, .arith .sub, .arith .mul, .arith .div,
    .compare .lt, .compare .gt, .compare .le, .compare .ge, .compare .eq,
    .equal, .car, .cdr, .cons, .list, .display, .repr,
    .quote, .define, .assign, .lambda, .createMacro, .defineMacro,
    .sequence, .conditional]

/-- The builtin that goes by `name`. -/
def Builtin.find? (name : String) : Option Builtin :=
  Builtin.all.find? fun builtin => builtin.name == name

/-- Every builtin is listed. -/
theorem Builtin.mem_all (builtin : Builtin) : builtin ∈ Builtin.all := by
  cases builtin with
  | arith op => cases op <;> decide
  | compare test => cases test <;> decide
  | _ => decide

end Lisp
