import Lisp.Proofs.Evaluation.Deed
import Mathlib.Data.List.Basic

/-!
How evaluation unfolds.  A run is one turn and what the turn leaves to do; the
equations below say what that is for each form and each operator, so that later
proofs need not look inside the evaluator again.
-/

namespace Lisp

variable {H α β : Type}

/-- The outcome of a computation that has the given answer. -/
def Outcome.ofAnswer : Answer H → Session H → Outcome H (Value H)
  | .ok result, session => .value result session
  | .error trouble, session => .fault trouble session

theorem Eval.bind_apply (x : Eval H α) (f : α → Eval H β) (s : Session H) :
    (x >>= f) s =
      match x s with
      | .value a t => f a t
      | .fault fault t => .fault fault t
      | .unfinished => .unfinished := rfl

theorem Eval.owner?_eq {owner : Option ScopeId} {name : String}
    {scope : ScopeId} {s : Session H}
    (hfound : s.forest.owner? scope name = owner) :
    Eval.owner? scope name s = .value owner s := by
  subst hfound
  rfl

/-- A computation one level deeper ends as it ends inside. -/
theorem Eval.deeper_of_answer {x : Eval H (Value H)} {s t : Session H}
    {answer : Answer H}
    (hinside : x (s.atDepth (s.depth + 1)) = .ofAnswer answer t) :
    Eval.deeper x s = .ofAnswer answer (t.atDepth (t.depth - 1)) := by
  unfold Session.atDepth at hinside
  rw [Eval.deeper, hinside]
  cases answer <;> rfl

theorem Eval.deeper_cases {x : Eval H (Value H)} {s t : Session H}
    {answer : Answer H} (hends : Eval.deeper x s = .ofAnswer answer t) :
    ∃ inner, x (s.atDepth (s.depth + 1)) = .ofAnswer answer inner ∧
      t = inner.atDepth (inner.depth - 1) := by
  unfold Eval.deeper at hends
  split at hends
  · next value inner hresult =>
      cases answer <;> cases hends
      exact ⟨inner, hresult, rfl⟩
  · next fault inner hresult =>
      cases answer <;> cases hends
      exact ⟨inner, hresult, rfl⟩
  · cases answer <;> cases hends

/-- A builtin that has nothing evaluated does not depend on how evaluation
goes. -/
theorem Builtin.call_eq_alone {op : Builtin} (evaluator : Evaluator H)
    (operands : List (Value H)) (scope : ScopeId)
    (hinert : op.evaluates = false) :
    op.call evaluator operands scope = op.alone operands scope := by
  cases op <;> first | rfl | cases hinert

section Arity

theorem Arity.exact_check_error {count given : Nat} {cause : Cause}
    (hrefused : (Arity.exact count).check given = .error cause) :
    given ≠ count ∧ cause = .wrongArity (toString count) given := by
  unfold check at hrefused
  split at hrefused
  · cases hrefused
  · next hdiffer =>
      cases hrefused
      exact ⟨by simpa [accepts] using hdiffer, rfl⟩

theorem Arity.eq_of_exact_check {count given : Nat}
    (haccepted : (Arity.exact count).check given = .ok ()) : given = count := by
  simpa [check, accepts] using haccepted

theorem Arity.exists_one {operands : List α}
    (haccepted : (Arity.exact 1).check operands.length = .ok ()) :
    ∃ a, operands = [a] :=
  List.length_eq_one_iff.mp (eq_of_exact_check haccepted)

theorem Arity.exists_two {operands : List α}
    (haccepted : (Arity.exact 2).check operands.length = .ok ()) :
    ∃ a b, operands = [a, b] :=
  List.length_eq_two.mp (eq_of_exact_check haccepted)

theorem Arity.exists_three {operands : List α}
    (haccepted : (Arity.exact 3).check operands.length = .ok ()) :
    ∃ a b c, operands = [a, b, c] :=
  List.length_eq_three.mp (eq_of_exact_check haccepted)

end Arity

/-- A builtin refuses a number of operands it does not declare. -/
theorem Builtin.call_of_wrong_count {op : Builtin} {count : Nat}
    {operands : List (Value H)} (hdeclared : op.arity = .exact count)
    (hdiffer : operands.length ≠ count) (evaluator : Evaluator H)
    (scope : ScopeId) :
    op.call evaluator operands scope = wrongCount count operands.length := by
  cases op <;> cases hdeclared <;> simp only [call] <;> split <;>
    first | rfl | exact absurd rfl hdiffer

variable [Host H]

/-- Take the value of a turn, or run the form in tail position. -/
def Turn.finish (steps : Nat) : Turn H → Eval H (Value H)
  | .done value => pure value
  | .tail form scope => run steps form scope

/-- Finish a turn whose faults are blamed on `place`, but not those of its
tail. -/
def conclude (steps : Nat) (place : Option Location) (x : Eval H (Turn H)) :
    Eval H (Value H) :=
  .located place x >>= Turn.finish steps

section Conclude

variable {steps : Nat} {place : Option Location} {s t : Session H}

theorem conclude_of_value {x : Eval H (Turn H)} {next : Turn H}
    (hends : x s = .value next t) :
    conclude steps place x s = next.finish steps t := by
  simp only [conclude, Eval.bind_apply, Eval.located, hends]

theorem conclude_of_fault {x : Eval H (Turn H)} {fault : Fault}
    (hfails : x s = .fault fault t) :
    conclude steps place x s = .fault (fault.orAt place) t := by
  simp only [conclude, Eval.bind_apply, Eval.located, hfails]

theorem conclude_bind_of_value {x : Eval H α} {f : α → Eval H (Turn H)} {a : α}
    (hends : x s = .value a t) :
    conclude steps place (x >>= f) s = conclude steps place (f a) t := by
  simp only [conclude, Eval.bind_apply, Eval.located, hends]

theorem conclude_bind_of_fault {x : Eval H α} {f : α → Eval H (Turn H)}
    {fault : Fault} (hfails : x s = .fault fault t) :
    conclude steps place (x >>= f) s = .fault (fault.orAt place) t := by
  simp only [conclude, Eval.bind_apply, Eval.located, hfails]

theorem conclude_bind_of_unfinished {x : Eval H α} {f : α → Eval H (Turn H)}
    (hends : x s = .unfinished) :
    conclude steps place (x >>= f) s = .unfinished := by
  simp only [conclude, Eval.bind_apply, Eval.located, hends]

/-- A conclusion with an answer has come through its first part, or has
failed there. -/
theorem conclude_bind_cases {x : Eval H α} {f : α → Eval H (Turn H)}
    {answer : Answer H}
    (hends : conclude steps place (x >>= f) s = .ofAnswer answer t) :
    (∃ a mid, x s = .value a mid ∧
      conclude steps place (f a) mid = .ofAnswer answer t) ∨
    ∃ fault, x s = .fault fault t ∧ answer = .error (fault.orAt place) := by
  cases hresult : x s with
  | value a mid =>
      rw [conclude_bind_of_value hresult] at hends
      exact .inl ⟨a, mid, rfl, hends⟩
  | fault fault mid =>
      rw [conclude_bind_of_fault hresult] at hends
      cases answer with
      | ok value => cases hends
      | error trouble =>
          cases hends
          exact .inr ⟨fault, rfl, rfl⟩
  | unfinished =>
      simp only [conclude, Eval.bind_apply, Eval.located, hresult] at hends
      cases answer <;> cases hends

end Conclude

theorem run_succ (steps : Nat) (form : Value H) (scope : ScopeId)
    (s : Session H) :
    run (steps + 1) form scope s =
      (turn (evaluate steps) form scope >>= Turn.finish steps) s := by
  simp only [run, evaluate, Eval.bind_apply]
  cases turn (nested (run steps)) form scope s with
  | value next t => cases next <;> rfl
  | fault => rfl
  | unfinished => rfl

theorem run_literal {form : Value H} (steps : Nat) (scope : ScopeId)
    (s : Session H) (hplain : form.isLiteral = true) :
    run (steps + 1) form scope s = .value form s := by
  cases form <;> first | rfl | cases hplain

theorem run_ref (steps : Nat) (name : String) (own : Option Location)
    (scope : ScopeId) (s : Session H) :
    run (steps + 1) (.ref name own) scope s =
      match s.forest.lookup scope name with
      | some value => .value value s
      | none => .fault { cause := .undefinedName name, place := own } s := by
  rw [run_succ]
  simp only [turn, Eval.bind_apply, Eval.lookup, Eval.read]
  cases s.forest.lookup scope name <;> rfl

theorem run_dotted {form : Value H} {id : ObjectId} {head rest : Value H}
    {own : Option Location} (steps : Nat) (scope : ScopeId) (s : Session H)
    (hshape : form = .pair id head rest own) (himproper : rest.items? = none) :
    run (steps + 1) form scope s =
      .fault { cause := .dottedCall form.text, place := form.place } s := by
  subst hshape
  rw [run_succ]
  simp only [turn, himproper]
  rfl

theorem run_call {form : Value H} {id : ObjectId} {head rest : Value H}
    {own : Option Location} {operands : List (Value H)} (steps : Nat)
    (scope : ScopeId) (s : Session H)
    (hshape : form = .pair id head rest own)
    (hproper : rest.items? = some operands) :
    run (steps + 1) form scope s =
      conclude steps form.place (do
        let operator ← evaluate steps head scope
        applyTo (evaluate steps) operator operands scope) s := by
  subst hshape
  rw [run_succ]
  simp only [turn, hproper]
  rfl

theorem evaluate_tooDeep (steps : Nat) {form : Value H} {scope : ScopeId}
    {s : Session H} (hfull : s.limit ≤ s.depth) :
    evaluate steps form scope s =
      .fault { cause := .evaluationTooDeep s.limit, place := form.place }
        (s.record (.limitReached s.limit form)) := by
  simp only [evaluate, nested, hfull, if_true]

theorem evaluate_deeper {steps : Nat} {form : Value H} {scope : ScopeId}
    {s : Session H} (hroom : s.depth < s.limit) :
    evaluate steps form scope s = Eval.deeper (run steps form scope) s := by
  have hbelow : ¬ s.limit ≤ s.depth := Nat.not_le.mpr hroom
  simp only [evaluate, nested, hbelow, if_false]

/-- What an operator does with the values of its operands. -/
def applyValues (evaluator : Evaluator H) (operator : Value H)
    (arguments : List (Value H)) (scope : ScopeId) : Eval H (Turn H) :=
  match operator with
  | .native proc => proc.call evaluator arguments scope
  | .closure _ params body captured =>
      if arguments.length = params.length then do
        let inner ← .enterScope captured (.ofLists params arguments)
        return .tail body inner
      else
        wrongCount params.length arguments.length
  | .expander _ params body => do
      let inner ← .enterScope scope (.ofLists params arguments)
      let expansion := body.substitute params (.ofLists params arguments) inner
      .note (.expanded expansion)
      return .tail expansion scope
  | other => .fail { cause := .notCallable other.typeName other.text }

/-- Evaluate the operands that are left and apply the operator. -/
def applyRest (evaluator : Evaluator H) (operator : Value H)
    (done rest : List (Value H)) (scope : ScopeId) : Eval H (Turn H) := do
  let values ← evaluateAll evaluator rest scope
  applyValues evaluator operator (done ++ values) scope

theorem applyRest_nil (evaluator : Evaluator H) (operator : Value H)
    (done : List (Value H)) (scope : ScopeId) :
    applyRest evaluator operator done [] scope =
      applyValues evaluator operator done scope := by
  simp [applyRest, evaluateAll]

theorem applyRest_cons (evaluator : Evaluator H) (operator form : Value H)
    (done rest : List (Value H)) (scope : ScopeId) :
    applyRest evaluator operator done (form :: rest) scope = (do
      let value ← evaluator form scope
      applyRest evaluator operator (done ++ [value]) rest scope) := by
  simp [applyRest, evaluateAll]

theorem applyTo_refused {operator : Value H} {operands : List (Value H)}
    {cause : Cause} (evaluator : Evaluator H) (scope : ScopeId)
    (hcheck : operator.admits operands.length = .error cause) :
    applyTo evaluator operator operands scope = .fail { cause } := by
  cases operator with
  | native proc =>
      simp only [Value.admits] at hcheck
      simp only [applyTo, hcheck]
      rfl
  | closure => cases hcheck
  | expander id params body =>
      simp only [Value.admits] at hcheck
      split at hcheck
      · cases hcheck
      · next hdiffer =>
          cases hcheck
          simp only [applyTo, hdiffer, if_false]
          rfl
  | _ =>
      cases hcheck
      rfl

theorem applyTo_of_takesValues {operator : Value H}
    {operands : List (Value H)} (evaluator : Evaluator H) (scope : ScopeId)
    (hcheck : operator.admits operands.length = .ok ())
    (heager : operator.takesValues = true) :
    applyTo evaluator operator operands scope =
      applyRest evaluator operator [] operands scope := by
  cases operator with
  | native proc =>
      simp only [Value.admits] at hcheck
      simp only [Value.takesValues] at heager
      simp only [applyTo, hcheck, heager]
      rfl
  | closure => rfl
  | expander id params body =>
      simp only [Value.admits] at hcheck
      split at hcheck
      · next hagree =>
          simp only [applyTo, hagree, if_true]
          rfl
      · cases hcheck
  | _ => cases hcheck

theorem applyTo_special {op : Builtin} {operands : List (Value H)}
    (evaluator : Evaluator H) (scope : ScopeId)
    (hcheck : op.arity.check operands.length = .ok ())
    (hraw : op.evaluatesOperands = false) :
    applyTo evaluator (.native (.builtin op)) operands scope =
      op.call evaluator operands scope := by
  simp only [applyTo, Native.arity, Native.evaluatesOperands, hcheck, hraw]
  rfl

end Lisp
