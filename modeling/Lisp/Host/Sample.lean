import Lisp.Evaluator.Procedure

/-!
A small host: procedures that show everything a host procedure can do.
-/

namespace Lisp

/-- The procedures of the sample host. -/
inductive SampleProc where
  /-- Answers a constant. -/
  | answer
  /-- Doubles its first operand. -/
  | double
  /-- Counts its operands. -/
  | count (raw : Bool)
  /-- Lists its operands. -/
  | args (raw : Bool)
  /-- Fails, with or without a place of its own. -/
  | fail (place : Option Location)
  /-- Goes on with its first operand, in the scope of the caller. -/
  | tail (raw : Bool)
  /-- Goes on with its first operand, in the root scope. -/
  | tailRoot
  /-- Evaluates its operands and lists the values last to first. -/
  | reversed
  deriving Repr, DecidableEq

/-- The procedures by name. -/
def SampleProc.table : List (String × SampleProc) :=
  [("answer", .answer), ("double", .double), ("count", .count false),
    ("args", .args false), ("fail", .fail none),
    ("fail-at", .fail (some ⟨"host", 7, 9⟩)), ("eval", .tail false),
    ("raw-count", .count true), ("raw-args", .args true),
    ("tail", .tail true), ("tail-root", .tailRoot),
    ("eval-all", .reversed)]

/-- The procedure that goes by `name`. -/
def SampleProc.find? (name : String) : Option SampleProc :=
  SampleProc.table.lookup name

/-- Whether a procedure is handed the values of its operands. -/
def SampleProc.evaluatesOperands : SampleProc → Bool
  | .answer | .double | .fail _ => true
  | .count raw | .args raw | .tail raw => !raw
  | .tailRoot | .reversed => false

/-- A proper list of values, its cells new. -/
def listTurn {H : Type} (items : List (Value H)) : Eval H (Turn H) := do
  let batch ← .freshBatch
  return .done (.list batch items)

/-- What a procedure of the sample host does. -/
def SampleProc.call {H : Type} (proc : SampleProc) (evaluator : Evaluator H)
    (operands : List (Value H)) (scope : ScopeId) : Eval H (Turn H) :=
  match proc with
  | .answer => return .done (.int 42)
  | .double =>
      match operands with
      | first :: _ => do
          return .done (← .ofExcept (first.arithmetic .mul (.int 2)))
      | [] => wrongCount 1 0
  | .count _ => return .done (.int (Int64.ofNat operands.length))
  | .args _ => listTurn operands
  | .fail place => .fail { cause := .reported .io "host failure", place }
  | .tail _ =>
      match operands with
      | first :: _ => return .tail first scope
      | [] => wrongCount 1 0
  | .tailRoot =>
      match operands with
      | first :: _ => do return .tail first (← .read Session.root)
      | [] => wrongCount 1 0
  | .reversed => do
      let values ← evaluateAll evaluator operands scope
      listTurn values.reverse

instance : Host SampleProc where
  call := SampleProc.call

end Lisp
