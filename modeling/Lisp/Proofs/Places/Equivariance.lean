import Lisp.Proofs.Evaluation.Turns
import Lisp.Proofs.Places.Relocation
import Mathlib

/-!
Evaluation with other places.  Evaluating relocated forms in a relocated session
gives, step for step, the relocated outcome: evaluation moves places about and
reports them, but nothing else depends on them.
-/

namespace Lisp

variable {H α β : Type} {m : Relocation}

/-- How a step goes on, with other places. -/
def Turn.relocated (m : Relocation) : Turn H → Turn H
  | .done value => .done (value.relocated m)
  | .tail form scope => .tail (form.relocated m) scope

/-- An outcome with other places; `clean` puts them into the result. -/
def Outcome.relocated (m : Relocation) (clean : α → α) :
    Outcome H α → Outcome H α
  | .value result s => .value (clean result) (s.relocated m)
  | .fault trouble s => .fault (trouble.relocated m) (s.relocated m)
  | .unfinished => .unfinished

/-- From a relocated session `y` computes what `x` computes from the session
itself, relocated. -/
def Equivariant (m : Relocation) (clean : α → α) (x y : Eval H α) : Prop :=
  ∀ s, y (s.relocated m) = (x s).relocated m clean

namespace Equivariant

variable {clean : α → α} {tidy : β → β}

theorem pure {a b : α} (hsame : b = clean a) :
    Equivariant m clean (pure a : Eval H α) (pure b) := by
  intro s
  subst hsame
  rfl

theorem fail {fault other : Fault} (hsame : other = fault.relocated m) :
    Equivariant m clean (.fail fault : Eval H α) (.fail other) := by
  intro s
  subst hsame
  rfl

/-- A fault without a place keeps having none. -/
theorem unplaced (cause : Cause) :
    Equivariant m clean (.fail { cause } : Eval H α) (.fail { cause }) :=
  .fail (Fault.relocated_unplaced m cause).symm

theorem bind {x y : Eval H α} {f g : α → Eval H β}
    (hfirst : Equivariant m clean x y)
    (hnext : ∀ a, Equivariant m tidy (f a) (g (clean a))) :
    Equivariant m tidy (x >>= f) (y >>= g) := by
  intro s
  rw [Eval.bind_apply, Eval.bind_apply, hfirst s]
  cases x s with
  | value a t => exact hnext a t
  | fault fault t => rfl
  | unfinished => rfl

theorem ofExcept {x y : Except Cause α} (hsame : y = x.map clean) :
    Equivariant m clean (.ofExcept x : Eval H α) (.ofExcept y) := by
  subst hsame
  cases x with
  | ok a => exact .pure rfl
  | error cause => exact .unplaced cause

theorem ofExcept_same {x y : Except Cause α} (hsame : y = x) :
    Equivariant m id (.ofExcept x : Eval H α) (.ofExcept y) :=
  ofExcept (by rw [hsame, Except.map_id, id])

/-- What a fault without a place is given is relocated as well. -/
theorem located {x y : Eval H α} (hinside : Equivariant m clean x y)
    {place other : Option Location} (hsame : other = m.place place) :
    Equivariant m clean (.located place x) (.located other y) := by
  intro s
  subst hsame
  simp only [Eval.located, hinside s]
  cases x s with
  | value a t => rfl
  | fault fault t =>
      simp only [Outcome.relocated, Fault.relocated_orAt]
  | unfinished => rfl

theorem note {event other : Event H} (hsame : other.entry = event.entry) :
    Equivariant m id (.note event) (.note other) := by
  intro s
  simp only [Eval.note, Eval.update, Outcome.relocated,
    s.relocated_record hsame]

theorem assign (scope : ScopeId) (name : String) (value : Value H) :
    Equivariant m id (.assign scope name value)
      (.assign scope name (value.relocated m)) := by
  intro s
  simp only [Eval.assign, Eval.update, Outcome.relocated, s.relocated_bind]

theorem enterScope (parent : ScopeId) (bindings : Bindings (Value H)) :
    Equivariant m id (.enterScope parent bindings)
      (.enterScope parent (bindings.map (Value.relocated m))) := by
  intro s
  simp only [Eval.enterScope, Outcome.relocated, s.relocated_openScope,
    s.nextScope_relocated]
  rfl

theorem freshBatch :
    Equivariant m id (Eval.freshBatch : Eval H Nat) .freshBatch :=
  fun _ => rfl

theorem emit (line : String) :
    Equivariant m id (Eval.emit line : Eval H Unit) (.emit line) := by
  intro s
  have hsink : (s.relocated m).sink = s.sink := rfl
  simp only [Eval.emit, hsink]
  cases s.sink.reception.refusal? with
  | none => rfl
  | some reason =>
      simp only [Outcome.relocated, Fault.relocated_unplaced]
      rfl

theorem lookup (scope : ScopeId) (name : String) :
    Equivariant m (Option.map (Value.relocated m))
      (.lookup scope name : Eval H _) (.lookup scope name) := by
  intro s
  simp only [Eval.lookup, Eval.read, Outcome.relocated]
  exact congrArg (Outcome.value · (s.relocated m))
    (s.forest.lookup_relocated scope name)

theorem owner? (scope : ScopeId) (name : String) :
    Equivariant m id (.owner? scope name : Eval H _) (.owner? scope name) := by
  intro s
  simp only [Eval.owner?, Eval.read, Outcome.relocated]
  exact congrArg (Outcome.value · (s.relocated m))
    (s.forest.owner?_relocated scope name)

theorem wrongCount (expected : Nat) (operands : List (Value H)) :
    Equivariant m clean (wrongCount expected operands.length : Eval H α)
      (wrongCount expected (operands.map (Value.relocated m)).length) := by
  rw [List.length_map]
  exact .unplaced _

theorem nameExpected (form : String) (other : Value H) :
    Equivariant m clean (nameExpected form other : Eval H α)
      (nameExpected form (other.relocated m)) := by
  simp only [Lisp.nameExpected, Value.typeName_relocated]
  exact .unplaced _

theorem deeper {x y : Eval H (Value H)}
    (hinside : Equivariant m (Value.relocated m) x y) :
    Equivariant m (Value.relocated m) (.deeper x) (.deeper y) := by
  intro s
  let below : Session H := { s with depth := s.depth + 1 }
  have hlevel : y (below.relocated m) =
      (x below).relocated m (Value.relocated m) := hinside below
  have hsame : { s.relocated m with depth := (s.relocated m).depth + 1 } =
      below.relocated m := rfl
  simp only [Eval.deeper, hsame, hlevel]
  cases x below with
  | value value t => rfl
  | fault fault t => rfl
  | unfinished => rfl

end Equivariant

theorem collectNames_of_not_name {item : Value H}
    (hother : item.refName? = none) (form : String) (seen : List String)
    (rest : List (Value H)) :
    collectNames form seen (item :: rest) =
      .error { cause := .malformed form (.parameterNotName item.text) } := by
  cases item <;> first | rfl | cases hother

theorem collectNames_relocated (form : String) (seen : List String)
    (items : List (Value H)) :
    collectNames form seen (items.map (Value.relocated m)) =
      (collectNames form seen items).mapError (Fault.relocated m) := by
  induction items generalizing seen with
  | nil => rfl
  | cons item items ih =>
      cases item with
      | ref name place =>
          simp only [List.map_cons, Value.relocated, collectNames]
          split
          · rfl
          · exact ih (name :: seen)
      | _ =>
          rw [List.map_cons, collectNames_of_not_name rfl,
            collectNames_of_not_name rfl, Value.text_relocated,
            Except.mapError, Fault.relocated_unplaced]

theorem parameterNames_relocated (form : String) (params : Value H) :
    parameterNames form (params.relocated m) =
      (parameterNames form params).mapError (Fault.relocated m) := by
  simp only [parameterNames, Value.items?_relocated, Value.text_relocated,
    Value.place_relocated]
  cases params.items? with
  | none => rfl
  | some items => exact collectNames_relocated form [] items

theorem Equivariant.takeParameters (form : String) (params : Value H) :
    Equivariant m id (takeParameters form params)
      (takeParameters form (params.relocated m)) := by
  simp only [Lisp.takeParameters, parameterNames_relocated]
  cases parameterNames form params with
  | ok names => exact .pure rfl
  | error fault => exact .fail rfl

theorem Value.displayed_relocated (v : Value H) :
    (v.relocated m).displayed = v.displayed := by
  cases v with
  | str s => rfl
  | _ => exact Value.text_relocated _

theorem Equivariant.miscounted {op : Builtin} {count : Nat}
    {operands : List (Value H)} (hdeclared : op.arity = .exact count)
    (hdiffer : operands.length ≠ count) (evaluator : Evaluator H)
    (scope : ScopeId) :
    Equivariant m (Turn.relocated m) (op.call evaluator operands scope)
      (op.call evaluator (operands.map (Value.relocated m)) scope) := by
  rw [Builtin.call_of_wrong_count hdeclared hdiffer,
    Builtin.call_of_wrong_count hdeclared (by rwa [List.length_map])]
  exact .wrongCount count operands

/-- An evaluator that goes along with a relocation. -/
def EquivariantEvaluator (m : Relocation) (evaluator : Evaluator H) : Prop :=
  ∀ form scope, Equivariant m (Value.relocated m) (evaluator form scope)
    (evaluator (form.relocated m) scope)

section Evaluator

variable {evaluator : Evaluator H}

theorem EquivariantEvaluator.evaluateAll
    (hequivariant : EquivariantEvaluator m evaluator)
    (forms : List (Value H)) (scope : ScopeId) :
    Equivariant m (List.map (Value.relocated m))
      (evaluateAll evaluator forms scope)
      (evaluateAll evaluator (forms.map (Value.relocated m)) scope) := by
  induction forms with
  | nil => exact .pure rfl
  | cons form forms ih =>
      simp only [Lisp.evaluateAll, List.map_cons, List.mapM_cons]
      exact (hequivariant form scope).bind fun value =>
        ih.bind fun values => .pure rfl

theorem EquivariantEvaluator.runSequence
    (hequivariant : EquivariantEvaluator m evaluator)
    (forms : List (Value H)) (scope : ScopeId) :
    Equivariant m (Turn.relocated m) (runSequence evaluator scope forms)
      (runSequence evaluator scope (forms.map (Value.relocated m))) := by
  induction forms with
  | nil => exact .pure rfl
  | cons form rest ih =>
      cases rest with
      | nil => exact .pure rfl
      | cons next rest => exact (hequivariant form scope).bind fun _ => ih

/-- No builtin looks at places. -/
theorem EquivariantEvaluator.builtin
    (hequivariant : EquivariantEvaluator m evaluator)
    (op : Builtin) (operands : List (Value H)) (scope : ScopeId) :
    Equivariant m (Turn.relocated m) (op.call evaluator operands scope)
      (op.call evaluator (operands.map (Value.relocated m)) scope) := by
  by_cases hcounted : ∀ count, op.arity = .exact count → operands.length = count
  case neg =>
    simp only [not_forall] at hcounted
    obtain ⟨count, hdeclared, hdiffer⟩ := hcounted
    exact .miscounted hdeclared hdiffer evaluator scope
  cases op with
  | arith op =>
      obtain ⟨a, b, rfl⟩ := List.length_eq_two.mp (hcounted 2 rfl)
      exact (Equivariant.ofExcept (a.arithmetic_relocated op b)).bind fun _ =>
        .pure rfl
  | compare test =>
      obtain ⟨a, b, rfl⟩ := List.length_eq_two.mp (hcounted 2 rfl)
      exact (Equivariant.ofExcept_same (a.order_relocated b)).bind fun _ =>
        .pure rfl
  | equal =>
      obtain ⟨a, b, rfl⟩ := List.length_eq_two.mp (hcounted 2 rfl)
      exact (Equivariant.ofExcept_same (a.equal_relocated b)).bind fun _ =>
        .pure rfl
  | car =>
      obtain ⟨value, rfl⟩ := List.length_eq_one_iff.mp (hcounted 1 rfl)
      cases value with
      | pair id head rest own => exact .pure rfl
      | _ => exact .unplaced _
  | cdr =>
      obtain ⟨value, rfl⟩ := List.length_eq_one_iff.mp (hcounted 1 rfl)
      cases value with
      | pair id head rest own => exact .pure rfl
      | _ => exact .unplaced _
  | cons =>
      obtain ⟨head, rest, rfl⟩ := List.length_eq_two.mp (hcounted 2 rfl)
      refine Equivariant.freshBatch.bind fun _ => .pure ?_
      simp only [Turn.relocated, Value.relocated, m.place_none]
      rfl
  | list =>
      exact Equivariant.freshBatch.bind fun batch =>
        .pure (congrArg Turn.done (Value.relocated_list batch operands).symm)
  | display =>
      have hlines : (operands.map (Value.relocated m)).map Value.displayed =
          operands.map Value.displayed := by
        simp only [List.map_map, Function.comp_def, Value.displayed_relocated]
      simp only [Builtin.call, hlines]
      exact (Equivariant.emit _).bind fun _ => .pure rfl
  | repr =>
      obtain ⟨v, rfl⟩ := List.length_eq_one_iff.mp (hcounted 1 rfl)
      exact .pure (by rw [Value.text_relocated]; rfl)
  | quote =>
      obtain ⟨form, rfl⟩ := List.length_eq_one_iff.mp (hcounted 1 rfl)
      exact .pure rfl
  | define =>
      obtain ⟨target, form, rfl⟩ := List.length_eq_two.mp (hcounted 2 rfl)
      cases target with
      | ref name own =>
          have hlogged : ∀ value : Value H,
              (Event.defined name (value.relocated m)).entry =
                (Event.defined name value).entry := by
            intro value
            simp only [Event.entry, Value.text_relocated]
          exact (hequivariant form scope).bind fun value =>
            (Equivariant.note (hlogged value)).bind fun _ =>
              (Equivariant.assign scope name value).bind fun _ => .pure rfl
      | _ => exact .nameExpected _ _
  | assign =>
      obtain ⟨target, form, rfl⟩ := List.length_eq_two.mp (hcounted 2 rfl)
      cases target with
      | ref name own =>
          refine (Equivariant.owner? scope name).bind fun owner => ?_
          cases owner with
          | none => exact .fail rfl
          | some owner =>
              exact (hequivariant form scope).bind fun value =>
                (Equivariant.assign owner name value).bind fun _ => .pure rfl
      | _ => exact .nameExpected _ _
  | lambda =>
      obtain ⟨params, body, rfl⟩ := List.length_eq_two.mp (hcounted 2 rfl)
      exact (Equivariant.takeParameters _ params).bind fun names =>
        Equivariant.freshBatch.bind fun _ => .pure rfl
  | createMacro =>
      obtain ⟨params, body, rfl⟩ := List.length_eq_two.mp (hcounted 2 rfl)
      exact (Equivariant.takeParameters _ params).bind fun names =>
        Equivariant.freshBatch.bind fun _ => .pure rfl
  | defineMacro =>
      obtain ⟨target, params, body, rfl⟩ := List.length_eq_three.mp (hcounted 3 rfl)
      cases target with
      | ref name own =>
          exact (Equivariant.takeParameters _ params).bind fun names =>
            (Equivariant.note rfl).bind fun _ =>
              Equivariant.freshBatch.bind fun batch =>
                (Equivariant.assign scope name _).bind fun _ => .pure rfl
      | _ => exact .nameExpected _ _
  | sequence => exact hequivariant.runSequence operands scope
  | conditional =>
      obtain ⟨condition, yes, no, rfl⟩ := List.length_eq_three.mp (hcounted 3 rfl)
      refine (hequivariant condition scope).bind fun value => ?_
      cases value with
      | bool b => cases b <;> exact .pure rfl
      | _ => exact .fail (by rw [Value.place_relocated]; rfl)

end Evaluator

section Evaluation

variable {evaluator : Evaluator Empty}

theorem EquivariantEvaluator.native
    (hequivariant : EquivariantEvaluator m evaluator)
    (proc : Native Empty) (operands : List (Value Empty)) (scope : ScopeId) :
    Equivariant m (Turn.relocated m) (proc.call evaluator operands scope)
      (proc.call evaluator (operands.map (Value.relocated m)) scope) := by
  cases proc with
  | builtin op => exact hequivariant.builtin op operands scope
  | host proc => exact proc.action.elim

theorem EquivariantEvaluator.applyTo
    (hequivariant : EquivariantEvaluator m evaluator)
    (operator : Value Empty) (operands : List (Value Empty))
    (scope : ScopeId) :
    Equivariant m (Turn.relocated m) (applyTo evaluator operator operands scope)
      (applyTo evaluator (operator.relocated m)
        (operands.map (Value.relocated m)) scope) := by
  cases operator with
  | native proc =>
      simp only [Lisp.applyTo, Value.relocated, List.length_map]
      refine (Equivariant.ofExcept_same rfl).bind fun _ => ?_
      cases proc.evaluatesOperands with
      | true =>
          exact (hequivariant.evaluateAll operands scope).bind fun arguments =>
            hequivariant.native proc arguments scope
      | false => exact hequivariant.native proc operands scope
  | closure id params body captured =>
      refine (hequivariant.evaluateAll operands scope).bind fun arguments => ?_
      rw [List.length_map]
      split
      · rw [← Bindings.map_ofLists]
        exact (Equivariant.enterScope _ _).bind fun inner => .pure rfl
      · exact .unplaced _
  | expander self params body =>
      simp only [Lisp.applyTo, Value.relocated, List.length_map]
      split
      · refine (hequivariant.evaluateAll operands scope).bind fun arguments => ?_
        rw [← Bindings.map_ofLists]
        refine (Equivariant.enterScope _ _).bind fun inner => ?_
        rw [Value.substitute_relocated]
        refine (Equivariant.note ?_).bind fun _ => .pure rfl
        simp only [Event.entry, Value.text_relocated, id]
      · exact .unplaced _
  | _ => exact .fail (by simp [Fault.relocated, m.place_none])

theorem EquivariantEvaluator.turn
    (hequivariant : EquivariantEvaluator m evaluator)
    (form : Value Empty) (scope : ScopeId) :
    Equivariant m (Turn.relocated m) (turn evaluator form scope)
      (turn evaluator (form.relocated m) scope) := by
  cases form with
  | ref name own =>
      refine (Equivariant.lookup scope name).bind fun found => ?_
      cases found with
      | none => exact .fail rfl
      | some value => exact .pure rfl
  | pair id head rest own =>
      have hwritten := (Value.pair id head rest own).text_relocated (m := m)
      have hthere := (Value.pair id head rest own).place_relocated (m := m)
      simp only [Value.relocated] at hwritten hthere
      simp only [Lisp.turn, Value.relocated, Value.items?_relocated, hwritten,
        hthere]
      cases rest.items? with
      | none => exact .fail rfl
      | some operands =>
          refine Equivariant.located ?_ rfl
          exact (hequivariant head scope).bind fun operator =>
            hequivariant.applyTo operator operands scope
  | _ => exact .pure rfl

/-- Going one level deeper keeps an evaluator equivariant. -/
theorem EquivariantEvaluator.nested
    (hequivariant : EquivariantEvaluator m evaluator) :
    EquivariantEvaluator m (nested evaluator) := by
  intro form scope s
  by_cases hfull : s.limit ≤ s.depth
  · have hfullToo : (s.relocated m).limit ≤ (s.relocated m).depth := hfull
    have hentry : (Event.limitReached s.limit (form.relocated m)).entry =
        (Event.limitReached s.limit form).entry := by
      simp only [Event.entry, Value.text_relocated]
    simp only [Lisp.nested, hfull, hfullToo, if_true, Value.place_relocated,
      Outcome.relocated, s.relocated_record hentry]
    rfl
  · have hroom : ¬ (s.relocated m).limit ≤ (s.relocated m).depth := hfull
    simp only [Lisp.nested, hfull, hroom, if_false]
    exact (hequivariant form scope).deeper s

/-- Evaluation goes along with every relocation, whatever the number of steps. -/
theorem run_equivariant (m : Relocation) (steps : Nat) :
    EquivariantEvaluator m (run steps : Evaluator Empty) := by
  induction steps with
  | zero => exact fun _ _ _ => rfl
  | succ steps ih =>
      intro form scope s
      rw [run_succ, run_succ]
      have hfinish : ∀ next : Turn Empty, Equivariant m (Value.relocated m)
          (next.finish steps) ((next.relocated m).finish steps) := by
        intro next
        cases next with
        | done value => exact .pure rfl
        | tail form scope => exact ih form scope
      exact ((ih.nested.turn form scope).bind hfinish) s

end Evaluation

section Sources

variable (m) (steps : Nat) (scope : ScopeId)

theorem Equivariant.evaluateForm (form : Datum) :
    Equivariant m (Value.relocated m)
      (Lisp.evaluateForm steps scope form : Eval Empty _)
      (Lisp.evaluateForm steps scope (form.relocated m)) := by
  apply Equivariant.freshBatch.bind
  intro batch
  rw [id, ← Value.relocated_ofDatum]
  exact (run_equivariant m steps).nested (.ofDatum batch form) scope

theorem Equivariant.evaluateForms (forms : List Datum) :
    Equivariant m (Value.relocated m)
      (Lisp.evaluateForms steps scope forms : Eval Empty _)
      (Lisp.evaluateForms steps scope (forms.map (Datum.relocated m))) := by
  unfold Lisp.evaluateForms
  suffices hgeneral : ∀ start : Value Empty, Equivariant m (Value.relocated m)
      (forms.foldlM (fun _ form => Lisp.evaluateForm steps scope form) start)
      ((forms.map (Datum.relocated m)).foldlM
        (fun _ form => Lisp.evaluateForm steps scope form)
        (start.relocated m)) from
    hgeneral .nil
  intro start
  induction forms generalizing start with
  | nil => exact .pure rfl
  | cons form forms ih =>
      rw [List.map_cons, List.foldlM_cons, List.foldlM_cons]
      exact (Equivariant.evaluateForm m steps scope form).bind ih

end Sources

end Lisp
