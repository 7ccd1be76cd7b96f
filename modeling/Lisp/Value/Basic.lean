import Lisp.Builtin
import Lisp.Datum.Basic

/-!
Values.  Code and data are the same trees: a session evaluates values and
answers with values.  Cells and procedures have an identity, so that two names
can stand for one cell; names and cells remember where they were written.

The type is parametric in `H`, the procedures a host program adds.  With no
host, `H` is `Empty` and the only native procedures are the builtins.
-/

namespace Lisp

/-- The number of a scope in a session. -/
structure ScopeId where
  index : Nat
  deriving Repr, DecidableEq, Inhabited

/-- The identity of a cell or a procedure. -/
inductive ObjectId where
  /-- The object with a given number in a batch that was made together. -/
  | made (batch index : Nat)
  /-- A cell copied by the macro call that opened `scope`. -/
  | copied (scope : ScopeId) (index : Nat)
  deriving Repr, DecidableEq, Inhabited

/-- A procedure of the host program. -/
structure HostProc (H : Type) where
  name : String
  arity : Arity
  evaluatesOperands : Bool
  action : H

/-- A procedure that is not written in Lisp. -/
inductive Native (H : Type) where
  | builtin (op : Builtin)
  | host (proc : HostProc H)

namespace Native

variable {H : Type}

/-- The name a native procedure is printed as. -/
def name : Native H → String
  | .builtin op => op.name
  | .host proc => proc.name

/-- The operand counts a native procedure accepts. -/
def arity : Native H → Arity
  | .builtin op => op.arity
  | .host proc => proc.arity

/-- Whether a native procedure is handed the values of its operands. -/
def evaluatesOperands : Native H → Bool
  | .builtin op => op.evaluatesOperands
  | .host proc => proc.evaluatesOperands

end Native

/-- What the items of a list weigh together. -/
def weigh {α : Type} (weight : α → Nat) : List α → Nat
  | [] => 0
  | item :: todo => weight item + weigh weight todo

@[simp] theorem weigh_append {α : Type} (weight : α → Nat) (todo later : List α) :
    weigh weight (todo ++ later) = weigh weight todo + weigh weight later := by
  induction todo with
  | nil => exact (Nat.zero_add _).symm
  | cons item todo ih => simp only [List.cons_append, weigh, ih, Nat.add_assoc]

/-- A value. -/
inductive Value (H : Type) where
  | nil
  | bool (b : Bool)
  | int (n : Int64)
  | big (n : Int)
  | float (x : Float)
  | str (s : String)
  | ref (name : String) (place : Option Location)
  | pair (id : ObjectId) (car cdr : Value H) (place : Option Location)
  /-- A procedure and the scope it was created in. -/
  | closure (id : ObjectId) (params : List String) (body : Value H)
      (scope : ScopeId)
  /-- A macro; it has no scope of its own. -/
  | expander (id : ObjectId) (params : List String) (body : Value H)
  | native (proc : Native H)

instance {H : Type} : Inhabited (Value H) := ⟨.nil⟩

namespace Value

variable {H : Type}

/-- How many nodes a value has. -/
def size : Value H → Nat
  | .pair _ car cdr _ => car.size + cdr.size + 1
  | .closure _ _ body _ => body.size + 1
  | .expander _ _ body => body.size + 1
  | _ => 1

/-- The name of the type of a value, as reports give it. -/
def typeName : Value H → String
  | .nil => "nil"
  | .bool _ => "bool"
  | .int _ => "int"
  | .big _ => "bigint"
  | .float _ => "float"
  | .str _ => "string"
  | .ref _ _ => "reference"
  | .pair _ _ _ _ => "cons"
  | .closure _ _ _ _ => "closure"
  | .expander _ _ _ => "macro"
  | .native _ => "native procedure"

/-- Whether a value is the empty list. -/
def isNil : Value H → Bool
  | .nil => true
  | _ => false

/-- The name of a reference. -/
def refName? : Value H → Option String
  | .ref name _ => some name
  | _ => none

/-- Where a value was written.  A cell without a place of its own goes by the
place of its head. -/
def place : Value H → Option Location
  | .ref _ place => place
  | .pair _ _ _ (some place) => some place
  | .pair _ car _ none => car.place
  | _ => none

/-- The elements of a proper list. -/
def items? : Value H → Option (List (Value H))
  | .nil => some []
  | .pair _ car cdr _ => cdr.items?.map (car :: ·)
  | _ => none

/-- A proper list of cells numbered from `index` on in one batch. -/
def listFrom (batch : Nat) : Nat → List (Value H) → Value H
  | _, [] => .nil
  | index, item :: items =>
      .pair (.made batch index) item (listFrom batch (index + 1) items) none

/-- A proper list made in one batch. -/
def list (batch : Nat) (items : List (Value H)) : Value H :=
  listFrom batch 0 items

/-- Give the cells of a datum the numbers from `index` on in one batch; the
second component is the first number left over. -/
def label (batch : Nat) : Datum → Nat → Value H × Nat
  | .nil, index => (.nil, index)
  | .bool b, index => (.bool b, index)
  | .int n, index => (.int n, index)
  | .big n, index => (.big n, index)
  | .float x, index => (.float x, index)
  | .str s, index => (.str s, index)
  | .ref name place, index => (.ref name place, index)
  | .pair car cdr place, index =>
      let (head, next) := label batch car (index + 1)
      let (tail, left) := label batch cdr next
      (.pair (.made batch index) head tail place, left)

/-- A form taken in as a value, its cells made in one batch. -/
def ofDatum (batch : Nat) (form : Datum) : Value H :=
  (label batch form 0).1

theorem size_pos (v : Value H) : 0 < v.size := by
  cases v <;> simp [size]

end Value

end Lisp
