import Lisp.Datum.Reader
import Lisp.Evaluator.Expansion
import Lisp.Evaluator.Procedure

/-!
Evaluation.  A form takes one turn after another until it has a value: the
bodies of procedures, the expansions of macros and the last forms of `if` and
`begin` take the place of the form they stand in, so they nest no deeper.
Everything else is an evaluation of its own and counts against the limit.

Evaluation need not end, so it is given a number of steps it may take.  An
answer reached within them is the answer for any larger number.
-/

namespace Lisp

variable {H : Type} [Host H]

/-- Apply the value in operator position to the operands of a call. -/
def applyTo (evaluator : Evaluator H) (operator : Value H)
    (operands : List (Value H)) (scope : ScopeId) : Eval H (Turn H) :=
  match operator with
  | .native proc => do
      .ofExcept (proc.arity.check operands.length)
      if proc.evaluatesOperands then
        let arguments ← evaluateAll evaluator operands scope
        proc.call evaluator arguments scope
      else
        proc.call evaluator operands scope
  | .closure _ params body captured => do
      let arguments ← evaluateAll evaluator operands scope
      if arguments.length = params.length then
        let inner ← .enterScope captured (.ofLists params arguments)
        return .tail body inner
      else
        wrongCount params.length arguments.length
  | .expander _ params body =>
      if operands.length = params.length then do
        let arguments ← evaluateAll evaluator operands scope
        let bindings := Bindings.ofLists params arguments
        let inner ← .enterScope scope bindings
        let expansion := body.substitute params bindings inner
        .note (.expanded expansion)
        return .tail expansion scope
      else
        wrongCount params.length operands.length
  | other => .fail { cause := .notCallable other.typeName other.text }

/-- One turn of the evaluation of a form.  A call is taken apart before
anything in it is evaluated, and it is blamed for faults that have no place of
their own. -/
def turn (evaluator : Evaluator H) (form : Value H) (scope : ScopeId) :
    Eval H (Turn H) :=
  match form with
  | .ref name place => do
      match ← .lookup scope name with
      | some value => return .done value
      | none => .fail { cause := .undefinedName name, place }
  | .pair _ head rest _ =>
      match rest.items? with
      | none =>
          .fail { cause := .dottedCall form.text, place := form.place }
      | some operands =>
          .located form.place do
            let operator ← evaluator head scope
            applyTo evaluator operator operands scope
  | literal => return .done literal

/-- Evaluate one level deeper, unless the limit has been reached. -/
def nested (evaluator : Evaluator H) : Evaluator H :=
  fun form scope session =>
    if session.limit ≤ session.depth then
      .fault
        { cause := .evaluationTooDeep session.limit, place := form.place }
        (session.record (.limitReached session.limit form))
    else
      Eval.deeper (evaluator form scope) session

/-- Take turns until there is a value.  No more than `steps` turns are taken in
a row, nested ones included. -/
def run : Nat → Evaluator H
  | 0 => fun _ _ => .unfinished
  | steps + 1 => fun form scope session =>
      match turn (nested (run steps)) form scope session with
      | .value (.done value) session => .value value session
      | .value (.tail form scope) session => run steps form scope session
      | .fault fault session => .fault fault session
      | .unfinished => .unfinished

/-- The evaluation of a form in a scope. -/
def evaluate (steps : Nat) : Evaluator H :=
  nested (run steps)

/-- Take in a form and evaluate it. -/
def evaluateForm (steps : Nat) (scope : ScopeId) (form : Datum) :
    Eval H (Value H) := do
  let batch ← .freshBatch
  evaluate steps (.ofDatum batch form) scope

/-- Evaluate forms one after another; the value is that of the last. -/
def evaluateForms (steps : Nat) (scope : ScopeId) (forms : List Datum) :
    Eval H (Value H) :=
  forms.foldlM (fun _ form => evaluateForm steps scope form) .nil

/-- Read a source and evaluate its forms in a scope.  Nothing is evaluated if
the source cannot be read as a whole. -/
def evaluateSourceIn (steps : Nat) (scope : ScopeId) (source file : String) :
    Eval H (Value H) :=
  match read source file with
  | .ok forms => evaluateForms steps scope forms
  | .error fault => .fail fault

/-- Read a source and evaluate its forms in the root scope. -/
def evaluateSource (steps : Nat) (source file : String) : Eval H (Value H) := do
  let root ← Eval.read Session.root
  evaluateSourceIn steps root source file

/-- More steps than any program takes in practice. -/
def ampleSteps : Nat := 1 <<< 60

end Lisp
