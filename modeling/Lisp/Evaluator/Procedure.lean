import Lisp.Session.Eval
import Lisp.Value.Equality

/-!
What the native procedures do.  A procedure is given its operands, the scope of
its caller and the means to evaluate; it answers with a value, or with a form
that the caller goes on with in its place.
-/

namespace Lisp

variable {H : Type}

/-- The evaluation of a form in a scope. -/
abbrev Evaluator (H : Type) : Type :=
  Value H → ScopeId → Eval H (Value H)

/-- How one step of evaluation goes on. -/
inductive Turn (H : Type) where
  | done (value : Value H)
  /-- The value is that of another form, in tail position. -/
  | tail (form : Value H) (scope : ScopeId)

/-- The procedures a host program adds, and what they do. -/
class Host (H : Type) where
  call : H → Evaluator H → List (Value H) → ScopeId → Eval H (Turn H)

instance : Host Empty where
  call proc := nomatch proc

/-- Evaluate forms from left to right. -/
def evaluateAll (evaluator : Evaluator H) (forms : List (Value H))
    (scope : ScopeId) : Eval H (List (Value H)) :=
  forms.mapM fun form => evaluator form scope

/-- The complaint that `got` operands are not `expected`. -/
def wrongCount {α : Type} (expected got : Nat) : Eval H α :=
  .fail { cause := .wrongArity (toString expected) got }

/-- The complaint that something other than a name was to be bound. -/
def nameExpected {α : Type} (form : String) (other : Value H) : Eval H α :=
  .fail { cause := .malformed form (.nameExpected other.typeName) }

/-- The names in a list of parameters, given those before, newest first. -/
def collectNames (form : String) (seen : List String) :
    List (Value H) → Except Fault (List String)
  | [] => .ok seen.reverse
  | .ref name place :: rest =>
      if name ∈ seen then
        .error { cause := .malformed form (.parameterRepeated name), place }
      else
        collectNames form (name :: seen) rest
  | item :: _ =>
      .error { cause := .malformed form (.parameterNotName item.text) }

/-- The names in a parameter list: a proper list of distinct names. -/
def parameterNames (form : String) (params : Value H) :
    Except Fault (List String) :=
  match params.items? with
  | some items => collectNames form [] items
  | none =>
      .error
        { cause := .malformed form (.parametersNotList params.text)
          place := params.place }

/-- The names in a parameter list, or the fault with it. -/
def takeParameters (form : String) (params : Value H) : Eval H (List String) :=
  match parameterNames form params with
  | .ok names => pure names
  | .error fault => .fail fault

/-- How a value is displayed: strings as they are, all else in source form. -/
def Value.displayed : Value H → String
  | .str s => s
  | v => v.text

/-- Evaluate all forms but the last, and go on with the last. -/
def runSequence (evaluator : Evaluator H) (scope : ScopeId) :
    List (Value H) → Eval H (Turn H)
  | [] => pure (.done .nil)
  | [last] => pure (.tail last scope)
  | form :: forms => do
      let _ ← evaluator form scope
      runSequence evaluator scope forms

/-- Make an object with an identity of its own. -/
def make (build : ObjectId → Value H) : Eval H (Turn H) := do
  let batch ← Eval.freshBatch
  return .done (build (.made batch 0))

/-- What a builtin does with its operands. -/
def Builtin.call (evaluator : Evaluator H) (op : Builtin)
    (operands : List (Value H)) (scope : ScopeId) : Eval H (Turn H) :=
  match op with
  | .arith op =>
      match operands with
      | [a, b] => do return .done (← .ofExcept (a.arithmetic op b))
      | _ => wrongCount 2 operands.length
  | .compare test =>
      match operands with
      | [a, b] => do
          return .done (.bool (test.holds (← .ofExcept (a.order b))))
      | _ => wrongCount 2 operands.length
  | .equal =>
      match operands with
      | [a, b] => do return .done (.bool (← .ofExcept (a.equal b)))
      | _ => wrongCount 2 operands.length
  | .car =>
      match operands with
      | [.pair _ head _ _] => return .done head
      | [other] => .fail { cause := .pairExpected other.typeName }
      | _ => wrongCount 1 operands.length
  | .cdr =>
      match operands with
      | [.pair _ _ rest _] => return .done rest
      | [other] => .fail { cause := .pairExpected other.typeName }
      | _ => wrongCount 1 operands.length
  | .cons =>
      match operands with
      | [head, rest] => make fun id => .pair id head rest none
      | _ => wrongCount 2 operands.length
  | .list => do
      let batch ← .freshBatch
      return .done (.list batch operands)
  | .display => do
      .emit (String.intercalate " " (operands.map Value.displayed))
      return .done .nil
  | .repr =>
      match operands with
      | [v] => return .done (.str v.text)
      | _ => wrongCount 1 operands.length
  | .quote =>
      match operands with
      | [form] => return .done form
      | _ => wrongCount 1 operands.length
  | .define =>
      match operands with
      | [.ref name _, form] => do
          let value ← evaluator form scope
          .note (.defined name value)
          .assign scope name value
          return .done .nil
      | [other, _] => nameExpected "define" other
      | _ => wrongCount 2 operands.length
  | .assign =>
      match operands with
      | [.ref name place, form] => do
          match ← .owner? scope name with
          | none => .fail { cause := .undefinedName name, place }
          | some owner =>
              let value ← evaluator form scope
              .assign owner name value
              return .done .nil
      | [other, _] => nameExpected "set!" other
      | _ => wrongCount 2 operands.length
  | .lambda =>
      match operands with
      | [params, body] => do
          let names ← takeParameters "lambda" params
          make fun id => .closure id names body scope
      | _ => wrongCount 2 operands.length
  | .createMacro =>
      match operands with
      | [params, body] => do
          let names ← takeParameters "create-macro" params
          make fun id => .expander id names body
      | _ => wrongCount 2 operands.length
  | .defineMacro =>
      match operands with
      | [.ref name _, params, body] => do
          let names ← takeParameters "defmacro" params
          .note (.macroDefined name)
          let batch ← .freshBatch
          .assign scope name (.expander (.made batch 0) names body)
          return .done .nil
      | [other, _, _] => nameExpected "defmacro" other
      | _ => wrongCount 3 operands.length
  | .sequence => runSequence evaluator scope operands
  | .conditional =>
      match operands with
      | [condition, yes, no] => do
          match ← evaluator condition scope with
          | .bool true => return .tail yes scope
          | .bool false => return .tail no scope
          | other =>
              .fail
                { cause := .boolExpected other.typeName
                  place := condition.place }
      | _ => wrongCount 3 operands.length

/-- What a native procedure does with its operands. -/
def Native.call [Host H] (evaluator : Evaluator H) (proc : Native H)
    (operands : List (Value H)) (scope : ScopeId) : Eval H (Turn H) :=
  match proc with
  | .builtin op => op.call evaluator operands scope
  | .host proc => Host.call proc.action evaluator operands scope

end Lisp
