import Lisp.Proofs.Evaluation.Turns
import Mathlib.Data.List.Basic
import Mathlib.Order.Filter.AtTopBot.Basic

/-!
The evaluator and the rules agree.  A derivation is computed by every large
enough number of steps, and whatever some number of steps computes is derived:
`evaluate` has an answer exactly when the rules give it.  A source is evaluated
form by form.
-/

namespace Lisp

/-- How a task is carried out with a number of steps. -/
def Task.perform {H : Type} [Host H] (steps : Nat) : Task H → Eval H (Value H)
  | .evaluate form scope => Lisp.evaluate steps form scope
  | .value form scope => run steps form scope
  | .call operator operands scope place =>
      conclude steps place
        (applyTo (Lisp.evaluate steps) operator operands scope)
  | .arguments operator done rest scope place =>
      conclude steps place
        (applyRest (Lisp.evaluate steps) operator done rest scope)
  | .sequence forms scope place =>
      conclude steps place (runSequence (Lisp.evaluate steps) scope forms)

open Filter

theorem eventually_of_succ {p : Nat → Prop}
    (hafter : ∀ᶠ steps in atTop, p (steps + 1)) :
    ∀ᶠ steps in atTop, p steps := by
  rw [eventually_atTop] at hafter ⊢
  obtain ⟨least, hafter⟩ := hafter
  refine ⟨least + 1, fun steps henough => ?_⟩
  obtain ⟨before, rfl⟩ := Nat.exists_eq_succ_of_ne_zero (by omega : steps ≠ 0)
  exact hafter before (by omega)

/-- What the rules derive is computed with all but finitely many numbers of
steps. -/
theorem BigStep.eventually_perform {peak : Nat} {task : Task Empty}
    {s t : Session Empty} {answer : Answer Empty}
    (hderived : BigStep peak task s answer t) :
    ∀ᶠ steps in atTop, task.perform steps s = .ofAnswer answer t := by
  induction hderived with
  | tooDeep hfull =>
      exact .of_forall fun steps => evaluate_tooDeep steps hfull
  | deeper hroom _ ih =>
      filter_upwards [ih] with steps hinside
      rw [Task.perform, evaluate_deeper hroom]
      exact Eval.deeper_of_answer hinside
  | literal hplain =>
      exact eventually_of_succ (.of_forall fun steps =>
        run_literal steps _ _ hplain)
  | bound hfound =>
      refine eventually_of_succ (.of_forall fun steps => ?_)
      rw [Task.perform, run_ref, hfound]
      rfl
  | unbound hmissing =>
      refine eventually_of_succ (.of_forall fun steps => ?_)
      rw [Task.perform, run_ref, hmissing]
      rfl
  | dotted hshape himproper =>
      exact eventually_of_succ (.of_forall fun steps =>
        run_dotted steps _ _ hshape himproper)
  | headFails hshape hproper _ ih =>
      apply eventually_of_succ
      filter_upwards [ih] with steps hfails
      rw [Task.perform, run_call steps _ _ hshape hproper]
      exact conclude_bind_of_fault hfails
  | application hshape hproper _ _ ih₁ ih₂ =>
      apply eventually_of_succ
      filter_upwards [ih₁, ih₂] with steps hevaluated happlied
      rw [Task.perform, run_call steps _ _ hshape hproper]
      exact (conclude_bind_of_value hevaluated).trans happlied
  | refused hcheck =>
      refine .of_forall fun steps => ?_
      rw [Task.perform, applyTo_refused _ _ hcheck]
      rfl
  | operands hcheck heager _ ih =>
      filter_upwards [ih] with steps happlied
      rw [Task.perform, applyTo_of_takesValues _ _ hcheck heager]
      exact happlied
  | operandFails _ ih =>
      filter_upwards [ih] with steps hfails
      rw [Task.perform, applyRest_cons]
      exact conclude_bind_of_fault hfails
  | operand _ _ ih₁ ih₂ =>
      filter_upwards [ih₁, ih₂] with steps hevaluated hothers
      rw [Task.perform, applyRest_cons]
      exact (conclude_bind_of_value hevaluated).trans hothers
  | function heager hresult =>
      refine .of_forall fun steps => ?_
      rw [Task.perform, applyRest_nil]
      have hinert := Builtin.evaluates_eq_false heager
      exact conclude_of_value
        ((congrFun (Builtin.call_eq_alone _ _ _ hinert) _).trans hresult)
  | functionFails heager hresult =>
      refine .of_forall fun steps => ?_
      rw [Task.perform, applyRest_nil]
      have hinert := Builtin.evaluates_eq_false heager
      exact conclude_of_fault
        ((congrFun (Builtin.call_eq_alone _ _ _ hinert) _).trans hresult)
  | miscounted hdiffer =>
      refine .of_forall fun steps => ?_
      rw [Task.perform, applyRest_nil, applyValues, if_neg hdiffer]
      rfl
  | body hagree _ ih =>
      filter_upwards [ih] with steps hinside
      rw [Task.perform, applyRest_nil, applyValues, if_pos hagree]
      exact hinside
  | expansion hcopied _ ih =>
      filter_upwards [ih] with steps hinside
      subst hcopied
      rw [Task.perform, applyRest_nil]
      exact hinside
  | direct hcheck hraw hinert hresult =>
      refine .of_forall fun steps => ?_
      rw [Task.perform, applyTo_special _ _ hcheck hraw,
        Builtin.call_eq_alone _ _ _ hinert]
      exact conclude_of_value hresult
  | directFails hcheck hraw hinert hresult =>
      refine .of_forall fun steps => ?_
      rw [Task.perform, applyTo_special _ _ hcheck hraw,
        Builtin.call_eq_alone _ _ _ hinert]
      exact conclude_of_fault hresult
  | conditionFails _ ih =>
      filter_upwards [ih] with steps hfails
      rw [Task.perform, applyTo_special _ _ rfl rfl]
      exact conclude_bind_of_fault hfails
  | @conditionRefused _ _ _ _ _ _ _ value _ _ hother ih =>
      filter_upwards [ih] with steps hevaluated
      rw [Task.perform, applyTo_special _ _ rfl rfl]
      refine (conclude_bind_of_value hevaluated).trans ?_
      cases value with
      | bool b => exact absurd rfl (hother b)
      | _ => rfl
  | @branch _ _ _ _ _ _ _ _ b _ _ _ _ _ ih₁ ih₂ =>
      filter_upwards [ih₁, ih₂] with steps hevaluated hchosen
      rw [Task.perform, applyTo_special _ _ rfl rfl]
      refine (conclude_bind_of_value hevaluated).trans ?_
      cases b <;> exact hchosen
  | begin _ ih => exact ih
  | nothing => exact .of_forall fun steps => rfl
  | last _ ih => exact ih
  | effectFails _ ih =>
      filter_upwards [ih] with steps hfails
      exact conclude_bind_of_fault hfails
  | effect _ _ ih₁ ih₂ =>
      filter_upwards [ih₁, ih₂] with steps hevaluated hothers
      exact (conclude_bind_of_value hevaluated).trans hothers
  | @nameless _ target _ _ _ _ hbinder hother =>
      refine .of_forall fun steps => ?_
      rcases hbinder with rfl | rfl <;>
        rw [Task.perform, applyTo_special _ _ rfl rfl] <;>
        cases target <;> first | rfl | cases hother
  | definitionFails _ ih =>
      filter_upwards [ih] with steps hfails
      rw [Task.perform, applyTo_special _ _ rfl rfl]
      exact conclude_bind_of_fault hfails
  | definition _ ih =>
      filter_upwards [ih] with steps hevaluated
      rw [Task.perform, applyTo_special _ _ rfl rfl]
      exact (conclude_bind_of_value hevaluated).trans rfl
  | unassignable hmissing =>
      refine .of_forall fun steps => ?_
      rw [Task.perform, applyTo_special _ _ rfl rfl]
      exact (conclude_bind_of_value (Eval.owner?_eq hmissing)).trans rfl
  | assignmentFails hfound _ ih =>
      filter_upwards [ih] with steps hfails
      rw [Task.perform, applyTo_special _ _ rfl rfl]
      refine (conclude_bind_of_value (Eval.owner?_eq hfound)).trans ?_
      exact conclude_bind_of_fault hfails
  | assignment hfound _ ih =>
      filter_upwards [ih] with steps hevaluated
      rw [Task.perform, applyTo_special _ _ rfl rfl]
      refine (conclude_bind_of_value (Eval.owner?_eq hfound)).trans ?_
      exact (conclude_bind_of_value hevaluated).trans rfl

/-- Whatever a number of steps computes is derived by the rules. -/
def RunsDerived (steps : Nat) : Prop :=
  ∀ {form : Value Empty} {scope : ScopeId} {s t : Session Empty}
    {answer : Answer Empty},
    run steps form scope s = .ofAnswer answer t →
      ∃ peak, BigStep peak (.value form scope) s answer t

section Derived

variable {steps : Nat} {form : Value Empty} {scope : ScopeId}
  {place : Option Location} {s t : Session Empty} {answer : Answer Empty}

theorem evaluate_derived (hruns : RunsDerived steps)
    (hends : evaluate steps form scope s = .ofAnswer answer t) :
    ∃ peak, BigStep peak (.evaluate form scope) s answer t := by
  by_cases hfull : s.limit ≤ s.depth
  · rw [evaluate_tooDeep steps hfull] at hends
    cases answer with
    | ok value => cases hends
    | error fault =>
        cases hends
        exact ⟨1, .tooDeep hfull⟩
  · have hroom : s.depth < s.limit := Nat.not_le.mp hfull
    rw [evaluate_deeper hroom] at hends
    obtain ⟨inner, hresult, rfl⟩ := Eval.deeper_cases hends
    obtain ⟨peak, hinside⟩ := hruns hresult
    exact ⟨peak + 1, .deeper hroom hinside⟩

/-- A conclusion that begins with an evaluation has come through it with a
value, or has failed there. -/
theorem conclude_evaluate_cases (hruns : RunsDerived steps)
    {next : Value Empty → Eval Empty (Turn Empty)}
    (hends : conclude steps place (evaluate steps form scope >>= next) s =
      .ofAnswer answer t) :
    (∃ peak value mid, BigStep peak (.evaluate form scope) s (.ok value) mid ∧
      conclude steps place (next value) mid = .ofAnswer answer t) ∨
    ∃ peak fault, BigStep peak (.evaluate form scope) s (.error fault) t ∧
      answer = .error (fault.orAt place) := by
  rcases conclude_bind_cases hends with
    ⟨value, mid, hresult, hrest⟩ | ⟨fault, hresult, hfailed⟩
  · have hresult : evaluate steps form scope s = .ofAnswer (.ok value) mid :=
      hresult
    obtain ⟨peak, hevaluated⟩ := evaluate_derived hruns hresult
    exact .inl ⟨peak, value, mid, hevaluated, hrest⟩
  · have hresult : evaluate steps form scope s = .ofAnswer (.error fault) t :=
      hresult
    obtain ⟨peak, hevaluated⟩ := evaluate_derived hruns hresult
    exact .inr ⟨peak, fault, hevaluated, hfailed⟩

theorem sequence_derived (hruns : RunsDerived steps)
    {forms : List (Value Empty)}
    (hends : conclude steps place
      (runSequence (evaluate steps) scope forms) s = .ofAnswer answer t) :
    ∃ peak, BigStep peak (.sequence forms scope place) s answer t := by
  induction forms generalizing s with
  | nil =>
      cases answer <;> cases hends
      exact ⟨0, .nothing⟩
  | cons form rest ih =>
      cases rest with
      | nil =>
          obtain ⟨peak, hinside⟩ := hruns hends
          exact ⟨peak, .last hinside⟩
      | cons next rest =>
          rcases conclude_evaluate_cases hruns hends with
            ⟨first, value, mid, hevaluated, hrest⟩ | ⟨peak, fault, hfailed, rfl⟩
          · obtain ⟨later, hothers⟩ := ih hrest
            exact ⟨max first later, .effect hevaluated hothers⟩
          · exact ⟨peak, .effectFails hfailed⟩

/-- What a builtin that has nothing evaluated comes to, once concluded. -/
theorem conclude_alone_cases {op : Builtin} {operands : List (Value Empty)}
    (hinert : op.evaluates = false)
    (hends : conclude steps place (op.alone operands scope) s =
      .ofAnswer answer t) :
    (∃ value, op.alone operands scope s = .value (.done value) t ∧
      answer = .ok value) ∨
    ∃ fault, op.alone operands scope s = .fault fault t ∧
      answer = .error (fault.orAt place) := by
  rcases (Builtin.alone_deed operands scope hinert).settles s with
    ⟨value, after, hresult⟩ | ⟨fault, after, hresult⟩
  · rw [conclude_of_value hresult] at hends
    cases answer <;> cases hends
    exact .inl ⟨value, hresult, rfl⟩
  · rw [conclude_of_fault hresult] at hends
    cases answer <;> cases hends
    exact .inr ⟨fault, hresult, rfl⟩

theorem applyValues_derived (hruns : RunsDerived steps)
    {operator : Value Empty} {arguments : List (Value Empty)}
    (heager : operator.takesValues = true)
    (hends : conclude steps place
      (applyValues (evaluate steps) operator arguments scope) s =
        .ofAnswer answer t) :
    ∃ peak, BigStep peak (.arguments operator arguments [] scope place) s
      answer t := by
  cases operator with
  | native proc =>
      cases proc with
      | builtin op =>
          have hinert := Builtin.evaluates_eq_false heager
          have hends : conclude steps place
              (op.call (evaluate steps) arguments scope) s =
                .ofAnswer answer t := hends
          rw [Builtin.call_eq_alone _ _ _ hinert] at hends
          rcases conclude_alone_cases hinert hends with
            ⟨value, hresult, rfl⟩ | ⟨fault, hresult, rfl⟩
          · exact ⟨0, .function heager hresult⟩
          · exact ⟨0, .functionFails heager hresult⟩
      | host proc => exact proc.action.elim
  | closure id params body captured =>
      by_cases hagree : arguments.length = params.length
      · rw [applyValues, if_pos hagree] at hends
        obtain ⟨peak, hinside⟩ := hruns hends
        exact ⟨peak, .body hagree hinside⟩
      · rw [applyValues, if_neg hagree] at hends
        cases answer <;> cases hends
        exact ⟨0, .miscounted hagree⟩
  | expander id params body =>
      obtain ⟨peak, hinside⟩ := hruns hends
      exact ⟨peak, .expansion rfl hinside⟩
  | _ => cases heager

theorem arguments_derived (hruns : RunsDerived steps)
    {operator : Value Empty} {done rest : List (Value Empty)}
    (heager : operator.takesValues = true)
    (hends : conclude steps place
      (applyRest (evaluate steps) operator done rest scope) s =
        .ofAnswer answer t) :
    ∃ peak, BigStep peak (.arguments operator done rest scope place) s
      answer t := by
  induction rest generalizing done s with
  | nil =>
      rw [applyRest_nil] at hends
      exact applyValues_derived hruns heager hends
  | cons form rest ih =>
      rw [applyRest_cons] at hends
      rcases conclude_evaluate_cases hruns hends with
        ⟨first, value, mid, hevaluated, hrest⟩ | ⟨peak, fault, hfailed, rfl⟩
      · obtain ⟨later, hothers⟩ := ih hrest
        exact ⟨max first later, .operand hevaluated hothers⟩
      · exact ⟨peak, .operandFails hfailed⟩

theorem conditional_derived (hruns : RunsDerived steps)
    {condition yes no : Value Empty}
    (hends : conclude steps place
      (Builtin.conditional.call (evaluate steps) [condition, yes, no] scope)
        s = .ofAnswer answer t) :
    ∃ peak, BigStep peak (.call (.native (.builtin .conditional))
      [condition, yes, no] scope place) s answer t := by
  rcases conclude_evaluate_cases hruns hends with
    ⟨first, value, mid, hevaluated, hrest⟩ | ⟨peak, fault, hfailed, rfl⟩
  · cases value with
    | bool b =>
        have hchosen : run steps (if b then yes else no) scope mid =
            .ofAnswer answer t := by
          cases b <;> exact hrest
        obtain ⟨later, hchosen⟩ := hruns hchosen
        exact ⟨max first later, .branch hevaluated hchosen⟩
    | _ =>
        cases answer <;> cases hrest
        exact ⟨first, .conditionRefused hevaluated (fun b => nofun)⟩
  · exact ⟨peak, .conditionFails hfailed⟩

theorem define_derived (hruns : RunsDerived steps) {target form : Value Empty}
    (hends : conclude steps place
      (Builtin.define.call (evaluate steps) [target, form] scope) s =
        .ofAnswer answer t) :
    ∃ peak, BigStep peak (.call (.native (.builtin .define))
      [target, form] scope place) s answer t := by
  cases target with
  | ref name own =>
      rcases conclude_evaluate_cases hruns hends with
        ⟨peak, value, mid, hevaluated, hrest⟩ | ⟨peak, fault, hfailed, rfl⟩
      · cases answer <;> cases hrest
        exact ⟨peak, .definition hevaluated⟩
      · exact ⟨peak, .definitionFails hfailed⟩
  | _ =>
      cases answer <;> cases hends
      exact ⟨0, .nameless (.inl rfl) rfl⟩

theorem assign_derived (hruns : RunsDerived steps) {target form : Value Empty}
    (hends : conclude steps place
      (Builtin.assign.call (evaluate steps) [target, form] scope) s =
        .ofAnswer answer t) :
    ∃ peak, BigStep peak (.call (.native (.builtin .assign))
      [target, form] scope place) s answer t := by
  cases target with
  | ref name own =>
      have hends := (conclude_bind_of_value (Eval.owner?_eq rfl)).symm.trans hends
      cases hfound : s.forest.owner? scope name with
      | none =>
          rw [hfound] at hends
          cases answer <;> cases hends
          exact ⟨0, .unassignable hfound⟩
      | some owner =>
          rw [hfound] at hends
          rcases conclude_evaluate_cases hruns hends with
            ⟨peak, value, mid, hevaluated, hrest⟩ | ⟨peak, fault, hfailed, rfl⟩
          · cases answer <;> cases hrest
            exact ⟨peak, .assignment hfound hevaluated⟩
          · exact ⟨peak, .assignmentFails hfound hfailed⟩
  | _ =>
      cases answer <;> cases hends
      exact ⟨0, .nameless (.inr rfl) rfl⟩

theorem special_derived (hruns : RunsDerived steps) {op : Builtin}
    {operands : List (Value Empty)}
    (hcheck : op.arity.check operands.length = .ok ())
    (hraw : op.evaluatesOperands = false)
    (hends : conclude steps place
      (op.call (evaluate steps) operands scope) s = .ofAnswer answer t) :
    ∃ peak, BigStep peak (.call (.native (.builtin op)) operands scope place)
      s answer t := by
  by_cases hinert : op.evaluates = false
  · rw [Builtin.call_eq_alone _ _ _ hinert] at hends
    rcases conclude_alone_cases hinert hends with
      ⟨value, hresult, rfl⟩ | ⟨fault, hresult, rfl⟩
    · exact ⟨0, .direct hcheck hraw hinert hresult⟩
    · exact ⟨0, .directFails hcheck hraw hinert hresult⟩
  · cases op with
    | conditional =>
        obtain ⟨condition, yes, no, rfl⟩ := Arity.exists_three hcheck
        exact conditional_derived hruns hends
    | define =>
        obtain ⟨target, form, rfl⟩ := Arity.exists_two hcheck
        exact define_derived hruns hends
    | assign =>
        obtain ⟨target, form, rfl⟩ := Arity.exists_two hcheck
        exact assign_derived hruns hends
    | sequence =>
        obtain ⟨peak, hinside⟩ := sequence_derived hruns hends
        exact ⟨peak, .begin hinside⟩
    | _ => exact absurd rfl hinert

theorem call_derived (hruns : RunsDerived steps) {operator : Value Empty}
    {operands : List (Value Empty)}
    (hends : conclude steps place
      (applyTo (evaluate steps) operator operands scope) s =
        .ofAnswer answer t) :
    ∃ peak, BigStep peak (.call operator operands scope place) s answer t := by
  cases hcheck : operator.admits operands.length with
  | error cause =>
      rw [applyTo_refused _ _ hcheck] at hends
      cases answer <;> cases hends
      exact ⟨0, .refused hcheck⟩
  | ok =>
      cases heager : operator.takesValues with
      | true =>
          rw [applyTo_of_takesValues _ _ hcheck heager] at hends
          obtain ⟨peak, hrest⟩ := arguments_derived hruns heager hends
          exact ⟨peak, .operands hcheck heager hrest⟩
      | false =>
          cases operator with
          | native proc =>
              cases proc with
              | builtin op =>
                  rw [applyTo_special _ _ hcheck heager] at hends
                  exact special_derived hruns hcheck heager hends
              | host proc => exact proc.action.elim
          | closure | expander => cases heager
          | _ => cases hcheck

theorem run_derived (steps : Nat) : RunsDerived steps := by
  induction steps with
  | zero =>
      intro form scope s t answer hends
      cases answer <;> cases hends
  | succ steps ih =>
      intro form scope s t answer hends
      cases form with
      | ref name own =>
          rw [run_ref] at hends
          split at hends
          · next value hfound =>
              cases answer <;> cases hends
              exact ⟨0, .bound hfound⟩
          · next hmissing =>
              cases answer <;> cases hends
              exact ⟨0, .unbound hmissing⟩
      | pair id head rest own =>
          cases hshape : rest.items? with
          | none =>
              rw [run_dotted steps scope s rfl hshape] at hends
              cases answer <;> cases hends
              exact ⟨0, .dotted rfl hshape⟩
          | some operands =>
              rw [run_call steps scope s rfl hshape] at hends
              rcases conclude_evaluate_cases ih hends with
                ⟨first, operator, mid, hevaluated, hrest⟩ |
                  ⟨peak, fault, hfailed, rfl⟩
              · obtain ⟨later, happlied⟩ := call_derived ih hrest
                exact ⟨max first later,
                  .application rfl hshape hevaluated happlied⟩
              · exact ⟨peak, .headFails rfl hshape hfailed⟩
      | _ =>
          cases answer <;> cases hends
          exact ⟨0, .literal rfl⟩

end Derived

/-- The evaluation of a form in a scope ends with an answer and leaves a
session behind, given steps enough. -/
def Evaluates (form : Value Empty) (scope : ScopeId) (s : Session Empty)
    (answer : Answer Empty) (t : Session Empty) : Prop :=
  ∃ steps, evaluate steps form scope s = .ofAnswer answer t

theorem Evaluates.of_bigStep {peak : Nat} {form : Value Empty}
    {scope : ScopeId} {s t : Session Empty} {answer : Answer Empty}
    (hderived : BigStep peak (.evaluate form scope) s answer t) :
    Evaluates form scope s answer t :=
  hderived.eventually_perform.exists

theorem Evaluates.bigStep {form : Value Empty} {scope : ScopeId}
    {s t : Session Empty} {answer : Answer Empty}
    (hends : Evaluates form scope s answer t) :
    ∃ peak, BigStep peak (.evaluate form scope) s answer t := by
  obtain ⟨steps, hends⟩ := hends
  exact evaluate_derived (run_derived steps) hends

/-- Taking turns computes the big-step semantics: evaluation ends with an
answer and a session exactly when the rules derive them. -/
theorem evaluates_iff_bigStep (form : Value Empty) (scope : ScopeId)
    (s : Session Empty) (answer : Answer Empty) (t : Session Empty) :
    Evaluates form scope s answer t ↔
      ∃ peak, BigStep peak (.evaluate form scope) s answer t :=
  ⟨Evaluates.bigStep, fun ⟨_, hderived⟩ => .of_bigStep hderived⟩

section Sources

variable {steps : Nat} {scope : ScopeId}

/-- Forms evaluated one after another, the value before them being `last`: up to
the first that fails, or all of them. -/
inductive FormsEvaluate (steps : Nat) (scope : ScopeId) :
    Value Empty → List Datum → Session Empty → Answer Empty →
      Session Empty → Prop where
  | done {last : Value Empty} {s : Session Empty} :
      FormsEvaluate steps scope last [] s (.ok last) s
  | fails {last : Value Empty} {form : Datum} {forms : List Datum}
      {fault : Fault} {s t : Session Empty}
      (hfailed : evaluateForm steps scope form s = .fault fault t) :
      FormsEvaluate steps scope last (form :: forms) s (.error fault) t
  | next {last value : Value Empty} {form : Datum} {forms : List Datum}
      {answer : Answer Empty} {s mid t : Session Empty}
      (hevaluated : evaluateForm steps scope form s = .value value mid)
      (hrest : FormsEvaluate steps scope value forms mid answer t) :
      FormsEvaluate steps scope last (form :: forms) s answer t

/-- What evaluating forms comes to. -/
theorem FormsEvaluate.of_evaluateForms {forms : List Datum}
    {answer : Answer Empty} {s t : Session Empty}
    (hends : evaluateForms steps scope forms s = .ofAnswer answer t) :
    FormsEvaluate steps scope .nil forms s answer t := by
  unfold evaluateForms at hends
  generalize (Value.nil : Value Empty) = last at hends ⊢
  induction forms generalizing s last with
  | nil =>
      cases answer with
      | ok value =>
          cases hends
          exact .done
      | error fault => cases hends
  | cons form forms ih =>
      rw [List.foldlM_cons, Eval.bind_apply] at hends
      cases hreached : evaluateForm steps scope form s with
      | value value mid =>
          rw [hreached] at hends
          exact .next hreached (ih value hends)
      | fault trouble mid =>
          rw [hreached] at hends
          cases answer with
          | ok value => cases hends
          | error fault =>
              cases hends
              exact .fails hreached
      | unfinished =>
          rw [hreached] at hends
          cases answer <;> cases hends

/-- A form that is taken in is evaluated by the rules. -/
theorem evaluateForm_bigStep {form : Datum} {answer : Answer Empty}
    {s t : Session Empty}
    (hends : evaluateForm steps scope form s = .ofAnswer answer t) :
    ∃ peak, BigStep peak (.evaluate (.ofDatum s.batches form) scope)
      { s with batches := s.batches + 1 } answer t :=
  Evaluates.bigStep ⟨steps, hends⟩

theorem evaluateSource_of_read {H : Type} [Host H] (steps : Nat)
    {source file : String} {forms : List Datum}
    (hreads : read source file = .ok forms) (s : Session H) :
    evaluateSource steps source file s =
      evaluateForms steps s.root forms s := by
  have hinRoot : evaluateSource steps source file s =
      evaluateSourceIn steps s.root source file s := rfl
  rw [hinRoot, evaluateSourceIn, hreads]

/-- A source that cannot be read does nothing to a session. -/
theorem evaluateSource_of_refused {H : Type} [Host H] (steps : Nat)
    {source file : String} {fault : Fault}
    (hfails : read source file = .error fault) (s : Session H) :
    evaluateSource steps source file s = .fault fault s := by
  have hinRoot : evaluateSource steps source file s =
      evaluateSourceIn steps s.root source file s := rfl
  rw [hinRoot, evaluateSourceIn, hfails]
  rfl

end Sources

end Lisp
