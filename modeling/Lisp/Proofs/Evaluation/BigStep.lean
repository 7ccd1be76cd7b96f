import Lisp.Evaluator.Basic

/-!
Evaluation as a relation.  `BigStep` gives the meaning of a form by rules that
follow the form alone: no turns, no steps to count down.  Each rule says at
which level its parts are evaluated, and a derivation counts how many
evaluations are under way at its busiest moment.
-/

namespace Lisp

variable {H : Type}

/-- How an evaluation ends: with a value or with a fault. -/
abbrev Answer (H : Type) : Type :=
  Except Fault (Value H)

/-- The same session with another depth. -/
def Session.atDepth (s : Session H) (depth : Nat) : Session H :=
  { s with depth }

/-- What a builtin does with its operands when it has nothing evaluated. -/
def Builtin.alone (op : Builtin) (operands : List (Value H))
    (scope : ScopeId) : Eval H (Turn H) :=
  op.call (fun _ _ => .unfinished) operands scope

/-- The special forms that have some of their operands evaluated. -/
def Builtin.evaluates : Builtin → Bool
  | .define | .assign | .sequence | .conditional => true
  | _ => false

/-- The values that stand for themselves when evaluated. -/
def Value.isLiteral : Value H → Bool
  | .ref _ _ | .pair _ _ _ _ => false
  | _ => true

/-- What an operator says to a number of operands before it has any of them
evaluated.  A closure counts its arguments only afterwards. -/
def Value.admits : Value H → Nat → Except Cause Unit
  | .native proc, count => proc.arity.check count
  | .closure _ _ _ _, _ => .ok ()
  | .expander _ params _, count =>
      if count = params.length then .ok ()
      else .error (.wrongArity (toString params.length) count)
  | other, _ => .error (.notCallable other.typeName other.text)

/-- Whether an operator takes the values of its operands. -/
def Value.takesValues : Value H → Bool
  | .native proc => proc.evaluatesOperands
  | .closure _ _ _ _ | .expander _ _ _ => true
  | _ => false

/-- What an answer can be derived for. -/
inductive Task (H : Type) where
  /-- The evaluation of a form, one level deeper. -/
  | evaluate (form : Value H) (scope : ScopeId)
  /-- The value of a form at the level reached. -/
  | value (form : Value H) (scope : ScopeId)
  /-- The call of an operator on operand forms, written at `place`. -/
  | call (operator : Value H) (operands : List (Value H)) (scope : ScopeId)
      (place : Option Location)
  /-- A call with some operands evaluated and the others still to come. -/
  | arguments (operator : Value H) (done rest : List (Value H))
      (scope : ScopeId) (place : Option Location)
  /-- Forms one after another, the last at the level reached. -/
  | sequence (forms : List (Value H)) (scope : ScopeId)
      (place : Option Location)

/-- `BigStep peak task s answer t`: in the session `s` the task has this
answer and leaves the session `t`, and `peak` is the greatest number of
evaluations under way at once on the way there.  A fault without a place is
blamed on the call it comes from, but never on a call that has already given way
to its tail. -/
inductive BigStep : Nat → Task H → Session H → Answer H → Session H → Prop where
  | tooDeep {form scope s} (hfull : s.limit ≤ s.depth) :
      BigStep 1 (.evaluate form scope) s
        (.error { cause := .evaluationTooDeep s.limit, place := form.place })
        (s.record (.limitReached s.limit form))
  | deeper {peak form scope s answer t} (hroom : s.depth < s.limit)
      (hinside : BigStep peak (.value form scope) (s.atDepth (s.depth + 1))
        answer t) :
      BigStep (peak + 1) (.evaluate form scope) s answer
        (t.atDepth (t.depth - 1))
  | literal {form scope s} (hplain : form.isLiteral = true) :
      BigStep 0 (.value form scope) s (.ok form) s
  | bound {name place scope s value}
      (hfound : s.forest.lookup scope name = some value) :
      BigStep 0 (.value (.ref name place) scope) s (.ok value) s
  | unbound {name place scope s}
      (hmissing : s.forest.lookup scope name = none) :
      BigStep 0 (.value (.ref name place) scope) s
        (.error { cause := .undefinedName name, place }) s
  | dotted {form id head rest own scope s}
      (hshape : form = .pair id head rest own) (himproper : rest.items? = none) :
      BigStep 0 (.value form scope) s
        (.error { cause := .dottedCall form.text, place := form.place }) s
  | headFails {peak form id head rest own operands scope s fault t}
      (hshape : form = .pair id head rest own)
      (hproper : rest.items? = some operands)
      (hoperator : BigStep peak (.evaluate head scope) s (.error fault) t) :
      BigStep peak (.value form scope) s (.error (fault.orAt form.place)) t
  | application {first later form id head rest own operands scope s operator
        mid answer t}
      (hshape : form = .pair id head rest own)
      (hproper : rest.items? = some operands)
      (hevaluated : BigStep first (.evaluate head scope) s (.ok operator) mid)
      (happlied : BigStep later (.call operator operands scope form.place)
        mid answer t) :
      BigStep (max first later) (.value form scope) s answer t
  | refused {operator operands scope place s cause}
      (hcheck : operator.admits operands.length = .error cause) :
      BigStep 0 (.call operator operands scope place) s
        (.error { cause, place }) s
  | operands {peak operator operands scope place s answer t}
      (hcheck : operator.admits operands.length = .ok ())
      (heager : operator.takesValues = true)
      (hrest : BigStep peak (.arguments operator [] operands scope place)
        s answer t) :
      BigStep peak (.call operator operands scope place) s answer t
  | operandFails {peak operator done form rest scope place s fault t}
      (hevaluated : BigStep peak (.evaluate form scope) s (.error fault) t) :
      BigStep peak (.arguments operator done (form :: rest) scope place) s
        (.error (fault.orAt place)) t
  | operand {first later operator done form rest scope place s value mid
        answer t}
      (hevaluated : BigStep first (.evaluate form scope) s (.ok value) mid)
      (hothers : BigStep later
        (.arguments operator (done ++ [value]) rest scope place)
        mid answer t) :
      BigStep (max first later)
        (.arguments operator done (form :: rest) scope place) s answer t
  | function {op arguments scope place s value t}
      (heager : op.evaluatesOperands = true)
      (hresult : op.alone arguments scope s = .value (.done value) t) :
      BigStep 0 (.arguments (.native (.builtin op)) arguments [] scope place) s
        (.ok value) t
  | functionFails {op arguments scope place s fault t}
      (heager : op.evaluatesOperands = true)
      (hresult : op.alone arguments scope s = .fault fault t) :
      BigStep 0 (.arguments (.native (.builtin op)) arguments [] scope place) s
        (.error (fault.orAt place)) t
  | miscounted {id params body captured arguments scope place s}
      (hdiffer : arguments.length ≠ params.length) :
      BigStep 0 (.arguments (.closure id params body captured) arguments []
        scope place) s
        (.error
          { cause := .wrongArity (toString params.length) arguments.length
            place }) s
  | body {peak id params body captured arguments scope place s answer t}
      (hagree : arguments.length = params.length)
      (hinside : BigStep peak (.value body s.nextScope)
        (s.openScope ⟨.ofLists params arguments, some captured⟩) answer t) :
      BigStep peak (.arguments (.closure id params body captured) arguments []
        scope place) s answer t
  | expansion {peak id params body arguments scope place s expanded answer t}
      (hcopied : expanded =
        body.substitute params (.ofLists params arguments) s.nextScope)
      (hinside : BigStep peak (.value expanded scope)
        ((s.openScope ⟨.ofLists params arguments, some scope⟩).record
          (.expanded expanded)) answer t) :
      BigStep peak (.arguments (.expander id params body) arguments []
        scope place) s answer t
  | direct {op operands scope place s value t}
      (hcheck : op.arity.check operands.length = .ok ())
      (hraw : op.evaluatesOperands = false) (hinert : op.evaluates = false)
      (hresult : op.alone operands scope s = .value (.done value) t) :
      BigStep 0 (.call (.native (.builtin op)) operands scope place) s
        (.ok value) t
  | directFails {op operands scope place s fault t}
      (hcheck : op.arity.check operands.length = .ok ())
      (hraw : op.evaluatesOperands = false) (hinert : op.evaluates = false)
      (hresult : op.alone operands scope s = .fault fault t) :
      BigStep 0 (.call (.native (.builtin op)) operands scope place) s
        (.error (fault.orAt place)) t
  | conditionFails {peak condition yes no scope place s fault t}
      (hevaluated : BigStep peak (.evaluate condition scope) s
        (.error fault) t) :
      BigStep peak (.call (.native (.builtin .conditional))
        [condition, yes, no] scope place) s (.error (fault.orAt place)) t
  | conditionRefused {peak condition yes no scope place s value t}
      (hevaluated : BigStep peak (.evaluate condition scope) s (.ok value) t)
      (hother : ∀ b, value ≠ .bool b) :
      BigStep peak (.call (.native (.builtin .conditional))
        [condition, yes, no] scope place) s
        (.error
          { cause := .boolExpected value.typeName
            place := condition.place.or place }) t
  | branch {first later condition yes no scope place s b mid answer t}
      (hevaluated : BigStep first (.evaluate condition scope) s
        (.ok (.bool b)) mid)
      (hchosen : BigStep later (.value (if b then yes else no) scope)
        mid answer t) :
      BigStep (max first later) (.call (.native (.builtin .conditional))
        [condition, yes, no] scope place) s answer t
  | begin {peak forms scope place s answer t}
      (hinside : BigStep peak (.sequence forms scope place) s answer t) :
      BigStep peak (.call (.native (.builtin .sequence)) forms scope place) s
        answer t
  | nothing {scope place s} :
      BigStep 0 (.sequence [] scope place) s (.ok .nil) s
  | last {peak form scope place s answer t}
      (hinside : BigStep peak (.value form scope) s answer t) :
      BigStep peak (.sequence [form] scope place) s answer t
  | effectFails {peak form next rest scope place s fault t}
      (hevaluated : BigStep peak (.evaluate form scope) s (.error fault) t) :
      BigStep peak (.sequence (form :: next :: rest) scope place) s
        (.error (fault.orAt place)) t
  | effect {first later form next rest scope place s value mid answer t}
      (hevaluated : BigStep first (.evaluate form scope) s (.ok value) mid)
      (hothers : BigStep later (.sequence (next :: rest) scope place)
        mid answer t) :
      BigStep (max first later) (.sequence (form :: next :: rest) scope place)
        s answer t
  | nameless {op target form scope place s}
      (hbinder : op = .define ∨ op = .assign) (hother : target.refName? = none) :
      BigStep 0 (.call (.native (.builtin op)) [target, form] scope place) s
        (.error
          { cause := .malformed op.name (.nameExpected target.typeName)
            place }) s
  | definitionFails {peak name own form scope place s fault t}
      (hevaluated : BigStep peak (.evaluate form scope) s (.error fault) t) :
      BigStep peak (.call (.native (.builtin .define)) [.ref name own, form]
        scope place) s (.error (fault.orAt place)) t
  | definition {peak name own form scope place s value t}
      (hevaluated : BigStep peak (.evaluate form scope) s (.ok value) t) :
      BigStep peak (.call (.native (.builtin .define)) [.ref name own, form]
        scope place) s (.ok .nil)
        ((t.record (.defined name value)).bind scope name value)
  | unassignable {name own form scope place s}
      (hmissing : s.forest.owner? scope name = none) :
      BigStep 0 (.call (.native (.builtin .assign)) [.ref name own, form]
        scope place) s
        (.error { cause := .undefinedName name, place := own.or place }) s
  | assignmentFails {peak name own form scope place s owner fault t}
      (hfound : s.forest.owner? scope name = some owner)
      (hevaluated : BigStep peak (.evaluate form scope) s (.error fault) t) :
      BigStep peak (.call (.native (.builtin .assign)) [.ref name own, form]
        scope place) s (.error (fault.orAt place)) t
  | assignment {peak name own form scope place s owner value t}
      (hfound : s.forest.owner? scope name = some owner)
      (hevaluated : BigStep peak (.evaluate form scope) s (.ok value) t) :
      BigStep peak (.call (.native (.builtin .assign)) [.ref name own, form]
        scope place) s (.ok .nil) (t.bind owner name value)

end Lisp
