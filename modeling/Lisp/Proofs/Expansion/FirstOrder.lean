import Lisp.Proofs.Evaluation.Activation
import Lisp.Proofs.Evaluation.Alike
import Lisp.Proofs.Expansion.Positions

/-!
Macros as procedures.  On code that only calls builtin functions, `if` and
`begin`, it makes no difference whether arguments are put into the body or bound
around it: the expansion, evaluated where the macro is called, and the body,
evaluated in a scope of its own, go on alike turn by turn.
-/

namespace Lisp

variable {H : Type}

/-- From a scope just opened, names without a binding in it stand for what they
stand for around it, even if there is nothing around it. -/
theorem Forest.lookup_opened (forest : Forest H) (own : Bindings (Value H))
    (outer : ScopeId) (name : String) :
    (forest.push ⟨own, some outer⟩).lookup ⟨forest.scopes.size⟩ name =
      (own.get? name).or
        ((forest.push ⟨own, some outer⟩).lookup outer name) := by
  by_cases hexist : outer.index < forest.scopes.size
  · exact (Forest.inside_push hexist own).lookup name
  · have halone : (forest.push ⟨own, some outer⟩).lookup ⟨forest.scopes.size⟩
        name = own.get? name := by
      rw [lookup_eq, get?_push, if_pos rfl, parent?_push, if_pos rfl]
      simp only [hexist, if_false, Option.or_none]
    rcases Nat.lt_or_eq_of_le (Nat.le_of_not_lt hexist) with hbeyond | hsame
    · rw [halone, lookup_of_le _ (by rwa [size_push]), Option.or_none]
    · have hitself : outer = ⟨forest.scopes.size⟩ := by rw [hsame]
      rw [hitself] at halone ⊢
      rw [halone, Option.or_self]

/-- Whether a value is at hand for a form, without a call: a literal has itself,
and a name has what it is bound to. -/
def Value.Yields (forest : Forest H) (scope : ScopeId) (form v : Value H) :
    Prop :=
  (form.isLiteral = true ∧ v = form) ∨
    ∃ name place, form = .ref name place ∧ forest.lookup scope name = some v

/-- Whether a form calls an operator on operand forms; the head of the form is
the operator itself or a name for it. -/
def Value.Calls (forest : Forest H) (scope : ScopeId) (form operator : Value H)
    (operands : List (Value H)) : Prop :=
  ∃ id head rest place, form = .pair id head rest place ∧
    rest.items? = some operands ∧ head.Yields forest scope operator

/-- The builtins that first-order code calls: functions, `if` and `begin`. -/
def Builtin.firstOrder (op : Builtin) : Bool :=
  op.evaluatesOperands || op == .conditional || op == .sequence

/-- First-order code, to be evaluated in `scope` or right inside it: literals,
names, and calls of builtins under names that are not among the parameters. -/
inductive Value.FirstOrder (params : List String) (forest : Forest H)
    (scope : ScopeId) : Value H → Prop where
  | literal {form : Value H} (hplain : form.isLiteral = true) :
      FirstOrder params forest scope form
  | name (name : String) (place : Option Location) :
      FirstOrder params forest scope (.ref name place)
  | call {op : Builtin} {id : ObjectId} {name : String} {rest : Value H}
      {own place : Option Location} {operands : List (Value H)}
      (hknown : op.firstOrder = true) (hother : name ∉ params)
      (hfound : forest.lookup scope name = some (.native (.builtin op)))
      (hproper : rest.items? = some operands)
      (hparts : ∀ operand ∈ operands, FirstOrder params forest scope operand) :
      FirstOrder params forest scope (.pair id (.ref name own) rest place)

/-- A form seen from `outer` that says the same as another one seen from
`inner`: both have the same value at hand, or none, or they are calls of one
builtin on operands that say the same. -/
inductive Counterpart (forest : Forest H) (outer inner : ScopeId) :
    Value H → Value H → Prop where
  | value {form other v : Value H} (hhere : form.Yields forest outer v)
      (hthere : other.Yields forest inner v) :
      Counterpart forest outer inner form other
  | unbound {name : String} {place own : Option Location}
      (hhere : forest.lookup outer name = none)
      (hthere : forest.lookup inner name = none) :
      Counterpart forest outer inner (.ref name place) (.ref name own)
  | call {op : Builtin} {id copy : ObjectId} {head start rest tail : Value H}
      {place own : Option Location} {operands others : List (Value H)}
      (hknown : op.firstOrder = true)
      (hhere : head.Yields forest outer (.native (.builtin op)))
      (hthere : start.Yields forest inner (.native (.builtin op)))
      (hproper : rest.items? = some operands)
      (hproperToo : tail.items? = some others)
      (hparts : List.Forall₂ (Counterpart forest outer inner) operands others) :
      Counterpart forest outer inner (.pair id head rest place)
        (.pair copy start tail own)

/-- A name that stands for the same in both scopes says the same. -/
theorem Counterpart.name {forest : Forest H} {outer inner : ScopeId}
    {name : String}
    (hsame : forest.lookup inner name = forest.lookup outer name)
    (place : Option Location) :
    Counterpart forest outer inner (.ref name place) (.ref name place) := by
  cases hseen : forest.lookup outer name with
  | some v =>
      exact .value (.inr ⟨name, place, rfl, hseen⟩)
        (.inr ⟨name, place, rfl, hsame.trans hseen⟩)
  | none => exact .unbound hseen (hsame.trans hseen)

section Substitution

variable {params : List String} {bindings : Bindings (Value H)} {scope : ScopeId}

theorem Value.substituteFrom_literal {form : Value H}
    (hplain : form.isLiteral = true) (index : Nat) :
    (form.substituteFrom params bindings scope index).1 = form := by
  cases form <;> first | rfl | cases hplain

theorem Value.substituteFrom_name {name : String}
    (hfree : bindings.get? name = none) (place : Option Location) (index : Nat) :
    (substituteFrom params bindings scope (.ref name place) index).1 =
      .ref name place := by
  apply substituteFrom_leaf rfl
  rintro _ ⟨⟩
  exact hfree

/-- The elements of an expanded list are the expanded elements. -/
theorem Value.items?_substituteFrom {P : Value H → Value H → Prop}
    {v : Value H} {items : List (Value H)} (hproper : v.items? = some items)
    (hparts : ∀ item ∈ items, ∀ start,
      P (item.substituteFrom params bindings scope start).1 item) (index : Nat) :
    ∃ copies, (v.substituteFrom params bindings scope index).1.items? = some copies ∧
      List.Forall₂ P copies items := by
  induction v generalizing items index with
  | nil =>
      obtain rfl := Option.some.inj hproper
      exact ⟨[], rfl, .nil⟩
  | pair id car cdr place _ ih =>
      obtain ⟨rest, hlisted, rfl⟩ := Option.map_eq_some_iff.mp hproper
      obtain ⟨hfirst, hothers⟩ := List.forall_mem_cons.mp hparts
      obtain ⟨copies, hcopied, hpaired⟩ := ih hlisted hothers
        (car.substituteFrom params bindings scope (index + 1)).2
      rw [substituteFrom_pair]
      refine ⟨(car.substituteFrom params bindings scope (index + 1)).1 :: copies, ?_,
        .cons (hfirst _) hpaired⟩
      exact congrArg (Option.map _) hcopied
  | _ => cases hproper

variable {arguments : List (Value H)} {forest : Forest H} {outer : ScopeId}

/-- The expansion of first-order code, seen from outside, says what the code
says inside a scope with the arguments for the parameters. -/
theorem Value.FirstOrder.counterpart {body : Value H}
    (hcode : body.FirstOrder params forest outer)
    (hplain : ∀ v ∈ arguments, v.isLiteral = true) (index : Nat) :
    Counterpart (forest.push ⟨.ofLists params arguments, some outer⟩) outer
      ⟨forest.scopes.size⟩
      (body.substituteFrom params (.ofLists params arguments) ⟨forest.scopes.size⟩
        index).1 body := by
  induction hcode generalizing index with
  | literal hliteral =>
      rw [substituteFrom_literal hliteral]
      exact .value (.inl ⟨hliteral, rfl⟩) (.inl ⟨hliteral, rfl⟩)
  | name name place =>
      have hinside := forest.lookup_opened (.ofLists params arguments) outer name
      cases hbound : (Bindings.ofLists params arguments).get? name with
      | some argument =>
          have hmem : argument ∈ arguments := Bindings.mem_of_get?_ofLists hbound
          have hparam : name ∈ params := by
            by_contra habsent
            rw [Bindings.get?_ofLists_of_not_mem habsent] at hbound
            cases hbound
          rw [substituteFrom_param hparam hbound]
          rw [hbound, Option.some_or] at hinside
          exact .value (.inl ⟨hplain argument hmem, rfl⟩)
            (.inr ⟨name, place, rfl, hinside⟩)
      | none =>
          rw [substituteFrom_name hbound]
          rw [hbound, Option.none_or] at hinside
          exact .name hinside place
  | @call op id name rest own place operands hknown hother hfound hproper _ ih =>
      have hfree := Bindings.get?_ofLists_of_not_mem hother arguments
      have houtside := Forest.lookup_push_of_some hfound
        ⟨.ofLists params arguments, some outer⟩
      have hinside := forest.lookup_opened (.ofLists params arguments) outer name
      rw [hfree, Option.none_or, houtside] at hinside
      have hhead : (substituteFrom params (.ofLists params arguments)
          ⟨forest.scopes.size⟩ (.ref name own) (index + 1)).1 = .ref name own :=
        substituteFrom_name hfree own _
      obtain ⟨copies, hlisted, hpaired⟩ :=
        items?_substituteFrom hproper (fun item hmem => ih item hmem)
          (index + 1)
      rw [substituteFrom_pair]
      exact .call hknown (.inr ⟨name, own, hhead, houtside⟩)
        (.inr ⟨name, own, rfl, hinside⟩) hlisted hproper hpaired

end Substitution

/-- Turns that go on alike: with one value, or with tails that say the same. -/
inductive Continuing (forest : Forest H) (outer inner : ScopeId) :
    Turn H → Turn H → Prop where
  | done (value : Value H) :
      Continuing forest outer inner (.done value) (.done value)
  | tail {form other : Value H}
      (hsame : Counterpart forest outer inner form other) :
      Continuing forest outer inner (.tail form outer) (.tail other inner)

/-- Whether forms that say the same are evaluated alike. -/
def EvaluatedAlike (evaluator : Evaluator H) (forest : Forest H)
    (outer inner : ScopeId) : Prop :=
  ∀ form other, Counterpart forest outer inner form other →
    Matched forest Eq (evaluator form outer) (evaluator other inner)

section Builtins

variable {evaluator : Evaluator H} {forest : Forest H} {outer inner : ScopeId}
  {operands others : List (Value H)}

theorem EvaluatedAlike.sequence
    (halike : EvaluatedAlike evaluator forest outer inner)
    (hpaired : List.Forall₂ (Counterpart forest outer inner) operands others) :
    Matched forest (Continuing forest outer inner)
      (runSequence evaluator outer operands)
      (runSequence evaluator inner others) := by
  induction hpaired with
  | nil => exact .pure (.done .nil)
  | cons hfirst hrest ih =>
      cases hrest with
      | nil => exact .pure (.tail hfirst)
      | cons => exact (halike _ _ hfirst).bind fun _ _ _ => ih

theorem EvaluatedAlike.conditional
    (halike : EvaluatedAlike evaluator forest outer inner)
    (hpaired : List.Forall₂ (Counterpart forest outer inner) operands others) :
    Matched forest (Continuing forest outer inner)
      (Builtin.conditional.call evaluator operands outer)
      (Builtin.conditional.call evaluator others inner) := by
  by_cases hcounted : others.length = 3
  · obtain ⟨condition, yes, no, rfl⟩ := List.length_eq_three.mp hcounted
    obtain _ | ⟨hfirst, _ | ⟨hsecond, _ | ⟨hthird, ⟨⟩⟩⟩⟩ := hpaired
    refine (halike _ _ hfirst).bind fun value _ hsame => ?_
    subst hsame
    -- Only what the condition is blamed on may differ.
    cases value with
    | bool b =>
        cases b with
        | true => exact .pure (.tail hsecond)
        | false => exact .pure (.tail hthird)
    | _ => exact .fail rfl
  · have hcountedToo : operands.length ≠ 3 := by rwa [hpaired.length_eq]
    rw [Builtin.call_of_wrong_count rfl hcounted,
      Builtin.call_of_wrong_count rfl hcountedToo, hpaired.length_eq]
    exact .fail rfl

theorem EvaluatedAlike.applyTo [Host H] {op : Builtin}
    (halike : EvaluatedAlike evaluator forest outer inner)
    (hknown : op.firstOrder = true)
    (hpaired : List.Forall₂ (Counterpart forest outer inner) operands others) :
    Matched forest (Continuing forest outer inner)
      (applyTo evaluator (.native (.builtin op)) operands outer)
      (applyTo evaluator (.native (.builtin op)) others inner) := by
  simp only [Lisp.applyTo, Native.evaluatesOperands, hpaired.length_eq]
  refine (Matched.ofExcept _).bind fun _ _ _ => ?_
  by_cases heager : op.evaluatesOperands = true
  · simp only [heager, if_true]
    refine (Matched.evaluateAll halike hpaired).bind fun values _ hsame => ?_
    subst hsame
    exact .builtin heager .done evaluator evaluator values outer inner
  · simp only [heager]
    have hspecial : op = .conditional ∨ op = .sequence := by
      simpa [Builtin.firstOrder, heager] using hknown
    rcases hspecial with rfl | rfl
    · exact halike.conditional hpaired
    · exact halike.sequence hpaired

end Builtins

theorem evaluateAll_length {evaluator : Evaluator H} {forms : List (Value H)}
    {scope : ScopeId} {s t : Session H} {values : List (Value H)}
    (hends : evaluateAll evaluator forms scope s = .value values t) :
    values.length = forms.length := by
  induction forms generalizing s values with
  | nil =>
      cases hends
      rfl
  | cons form forms ih =>
      unfold evaluateAll at hends ih
      rw [List.mapM_cons, Eval.bind_apply] at hends
      split at hends
      · rw [Eval.bind_apply] at hends
        split at hends
        · next hevaluated =>
            cases hends
            rw [List.length_cons, List.length_cons, ih hevaluated]
        · cases hends
        · cases hends
      · cases hends
      · cases hends

section Runs

variable [Host H]

theorem run_yields {forest : Forest H} {form v : Value H} {scope : ScopeId}
    (hyields : form.Yields forest scope v) (steps : Nat) {s : Session H}
    (hhere : s.forest = forest) :
    run (steps + 1) form scope s = .value v s := by
  rcases hyields with ⟨hplain, rfl⟩ | ⟨name, place, rfl, hfound⟩
  · exact run_literal steps scope s hplain
  · rw [run_ref, hhere, hfound]

theorem evaluate_yields {form v : Value H} {scope : ScopeId} {s : Session H}
    (hyields : form.Yields s.forest scope v) (hroom : s.depth < s.limit)
    (steps : Nat) : evaluate (steps + 1) form scope s = .value v s := by
  have hinside : run (steps + 1) form scope (s.atDepth (s.depth + 1)) =
      .ofAnswer (.ok v) (s.atDepth (s.depth + 1)) := run_yields hyields steps rfl
  rw [evaluate_deeper hroom]
  exact Eval.deeper_of_answer hinside

theorem Matched.evaluate_yields {forest : Forest H} {outer inner : ScopeId}
    {form other v w : Value H} (hhere : form.Yields forest outer v)
    (hthere : other.Yields forest inner w) (steps : Nat) :
    Matched forest (fun a b => a = v ∧ b = w) (evaluate steps form outer)
      (evaluate steps other inner) := by
  apply Matched.nested
  intro s t htwins
  cases steps with
  | zero => exact .unfinished
  | succ steps =>
      rw [run_yields hhere steps htwins.1,
        run_yields hthere steps htwins.forest_right]
      exact .value ⟨rfl, rfl⟩ htwins

/-- Forms that say the same run alike, whatever the number of steps. -/
theorem run_counterpart (steps : Nat) (forest : Forest H)
    (outer inner : ScopeId) :
    EvaluatedAlike (run steps) forest outer inner := by
  induction steps with
  | zero => exact fun _ _ _ _ _ _ => .unfinished
  | succ steps ih =>
      have halike : EvaluatedAlike (evaluate steps) forest outer inner :=
        fun form other hsame => (ih form other hsame).nested
      have hfinish : ∀ next other, Continuing forest outer inner next other →
          Matched forest Eq (next.finish steps) (other.finish steps) := by
        rintro _ _ (value | hsame)
        · exact .pure rfl
        · exact ih _ _ hsame
      intro form other hsame s t htwins
      have hthere := htwins.forest_right
      cases hsame with
      | value hyields hyieldsToo =>
          rw [run_yields hyields steps htwins.1, run_yields hyieldsToo steps hthere]
          exact .value rfl htwins
      | unbound hmissing hmissingToo =>
          rw [run_ref, run_ref, htwins.1, hthere, hmissing, hmissingToo]
          exact .fault rfl htwins
      | call hknown hyields hyieldsToo hproper hproperToo hparts =>
          have hcalled := (Matched.evaluate_yields hyields hyieldsToo steps).bind
            (f := fun operator => applyTo (evaluate steps) operator _ outer)
            (g := fun operator => applyTo (evaluate steps) operator _ inner)
            fun _ _ hresolved => by
              rw [hresolved.1, hresolved.2]
              exact halike.applyTo hknown hparts
          rw [run_call steps outer s rfl hproper, run_call steps inner t rfl
            hproperToo]
          exact (hcalled.located _ _).bind hfinish s t htwins

/-- The values that the operands of a call made in `s` have, and the session
that their evaluation leaves. -/
def OperandsYield (operands : List (Value H)) (scope : ScopeId) (s : Session H)
    (arguments : List (Value H)) (t : Session H) : Prop :=
  ∃ steps, evaluateAll (evaluate steps) operands scope
    (s.atDepth (s.depth + 1)) = .value arguments t

variable {params : List String} {body : Value H} {id other : ObjectId}
  {env : ScopeId} {arguments operands : List (Value H)} {s t : Session H}

/-- Once the operands have their values, a macro and a procedure with one body
go on alike. -/
theorem conclude_applyValues_matches
    (hagree : arguments.length = params.length)
    (hplain : ∀ v ∈ arguments, v.isLiteral = true)
    (hcode : body.FirstOrder params t.forest env) (steps : Nat)
    (place own : Option Location) :
    (conclude steps place (applyValues (evaluate steps)
      (.expander id params body) arguments env) t).Matches
    (conclude steps own (applyValues (evaluate steps)
      (.closure other params body env) arguments env) t) := by
  let bindings := Bindings.ofLists params arguments
  let opened := t.openScope ⟨bindings, some env⟩
  let expansion := body.substitute params bindings t.nextScope
  have hexpanded : applyValues (evaluate steps) (.expander id params body)
      arguments env t =
        .value (.tail expansion env) (opened.record (.expanded expansion)) := rfl
  have hentered : applyValues (evaluate steps) (.closure other params body env)
      arguments env t = .value (.tail body t.nextScope) opened := by
    simp only [applyValues, hagree, if_true]
    rfl
  rw [conclude_of_value hexpanded, conclude_of_value hentered]
  have htwins : (opened.record (.expanded expansion)).Twins opened.forest opened :=
    ⟨opened.forest_record _, .record_left opened _⟩
  have hsame := hcode.counterpart hplain 0
  exact (run_counterpart steps opened.forest env t.nextScope expansion body hsame
    _ _ htwins).mono fun _ _ => And.right

/-- Calling a macro or a procedure with one body, on the same operands, goes
alike from the moment when the operator is known. -/
theorem conclude_applyTo_matches (hcounted : operands.length = params.length)
    (hyields : ∀ arguments u, OperandsYield operands env s arguments u →
      (∀ v ∈ arguments, v.isLiteral = true) ∧
        body.FirstOrder params u.forest env)
    (steps : Nat) (place own : Option Location) :
    (conclude steps place (applyTo (evaluate steps) (.expander id params body)
      operands env) (s.atDepth (s.depth + 1))).Matches
    (conclude steps own (applyTo (evaluate steps)
      (.closure other params body env) operands env)
      (s.atDepth (s.depth + 1))) := by
  have hadmitted : (Value.expander id params body).admits operands.length =
      .ok () := if_pos hcounted
  have hadmittedToo : (Value.closure other params body env).admits
      operands.length = .ok () := rfl
  rw [applyTo_of_takesValues _ _ hadmitted rfl,
    applyTo_of_takesValues _ _ hadmittedToo rfl, applyRest, applyRest]
  cases hevaluated : evaluateAll (evaluate steps) operands env
      (s.atDepth (s.depth + 1)) with
  | value arguments u =>
      obtain ⟨hplain, hcode⟩ := hyields arguments u ⟨steps, hevaluated⟩
      have hagree := (evaluateAll_length hevaluated).trans hcounted
      rw [conclude_bind_of_value hevaluated, conclude_bind_of_value hevaluated]
      exact conclude_applyValues_matches hagree hplain hcode steps place own
  | fault trouble u =>
      rw [conclude_bind_of_fault hevaluated, conclude_bind_of_fault hevaluated]
      exact .fault rfl ⟨u.log, rfl⟩
  | unfinished =>
      rw [conclude_bind_of_unfinished hevaluated,
        conclude_bind_of_unfinished hevaluated]
      exact .unfinished

/-- The level below that of the call: the operators are found, unless there is
no level left for that, and then the calls go on alike. -/
theorem run_calls_match {expanding invoking : Value H}
    (hcounted : operands.length = params.length)
    (hexpands : expanding.Calls s.forest env (.expander id params body) operands)
    (hinvokes : invoking.Calls s.forest env (.closure other params body env)
      operands)
    (hyields : ∀ arguments u, OperandsYield operands env s arguments u →
      (∀ v ∈ arguments, v.isLiteral = true) ∧
        body.FirstOrder params u.forest env)
    (steps : Nat) :
    (run steps expanding env (s.atDepth (s.depth + 1))).Matches
      (run steps invoking env (s.atDepth (s.depth + 1))) := by
  obtain ⟨_, head, _, _, hshape, hproper, hfound⟩ := hexpands
  obtain ⟨_, start, _, _, hshapeToo, hproperToo, hfoundToo⟩ := hinvokes
  let below := s.atDepth (s.depth + 1)
  cases steps with
  | zero => exact .unfinished
  | succ steps =>
      rw [run_call steps env _ hshape hproper, run_call steps env _ hshapeToo
        hproperToo]
      by_cases hfull : below.limit ≤ below.depth
      · rw [conclude_bind_of_fault (evaluate_tooDeep steps hfull),
          conclude_bind_of_fault (evaluate_tooDeep steps hfull)]
        exact .fault rfl (.record ⟨below.log, rfl⟩ _ _)
      · have hroom : below.depth < below.limit := Nat.lt_of_not_le hfull
        cases steps with
        | zero =>
            have hends : ∀ form : Value H, evaluate 0 form env below =
                .unfinished := by
              intro form
              rw [evaluate_deeper hroom]
              rfl
            rw [conclude_bind_of_unfinished (hends head),
              conclude_bind_of_unfinished (hends start)]
            exact .unfinished
        | succ steps =>
            have hfoundBelow : head.Yields below.forest env _ := hfound
            have hfoundTooBelow : start.Yields below.forest env _ := hfoundToo
            rw [conclude_bind_of_value (evaluate_yields hfoundBelow hroom steps),
              conclude_bind_of_value (evaluate_yields hfoundTooBelow hroom steps)]
            exact conclude_applyTo_matches hcounted hyields _ _ _

/-- A macro called on first-order code means the same as a procedure.  Take two
calls on the same operands in one scope, one of a macro and one of a closure of
that scope, both with the same parameters and the same body.  If the values of
the operands are literals, and if the body is first-order code once they are
known, then the calls have the same value, or fail for the same cause, hence
with the same kind and message, or both do not end; and they leave the same
output and the same bindings in every scope. -/
theorem expander_call_matches (params : List String) (body : Value H)
    (id other : ObjectId) (operands : List (Value H))
    (hcounted : operands.length = params.length) (env : ScopeId) (s : Session H)
    (expanding invoking : Value H)
    (hexpands : expanding.Calls s.forest env (.expander id params body) operands)
    (hinvokes : invoking.Calls s.forest env (.closure other params body env)
      operands)
    (hyields : ∀ arguments t, OperandsYield operands env s arguments t →
      (∀ v ∈ arguments, v.isLiteral = true) ∧
        body.FirstOrder params t.forest env)
    (steps : Nat) :
    (evaluate steps expanding env s).Matches (evaluate steps invoking env s) := by
  by_cases hfull : s.limit ≤ s.depth
  · rw [evaluate_tooDeep steps hfull, evaluate_tooDeep steps hfull]
    exact .fault rfl (.record ⟨s.log, rfl⟩ _ _)
  · have hroom : s.depth < s.limit := Nat.lt_of_not_le hfull
    have hinside := run_calls_match hcounted hexpands hinvokes hyields steps
    rw [evaluate_deeper hroom, evaluate_deeper hroom]
    apply Outcome.Related.deeper hinside
    rintro u _ ⟨log, rfl⟩
    exact ⟨log, rfl⟩

end Runs

/-- `(if (< a b) (begin (display a) (list b missing)) a)`. -/
def sampleCode : Value Empty :=
  .ofDatum 0 (.form [.ref "if" none,
    .form [.ref "<" none, .ref "a" none, .ref "b" none],
    .form [.ref "begin" none, .form [.ref "display" none, .ref "a" none],
      .form [.ref "list" none, .ref "b" none, .ref "missing" none]],
    .ref "a" none])

/-- A call of an operator on the numbers 1 and 2. -/
def sampleApplication (operator : Value Empty) : Value Empty :=
  .pair (.made 1 0) operator (.list 2 [.int 1, .int 2]) none

theorem sampleCode_firstOrder {forest : Forest Empty} {root : ScopeId}
    (hstocked : forest.Stocked root) :
    sampleCode.FirstOrder ["a", "b"] forest root := by
  have hfound : ∀ op : Builtin,
      forest.lookup root op.name = some (.native (.builtin op)) :=
    fun op => Forest.lookup_of_get? (hstocked.builtins op)
  refine .call rfl (by decide) (hfound .conditional) rfl ?_
  refine List.forall_mem_cons.mpr ⟨?_, List.forall_mem_cons.mpr
    ⟨?_, List.forall_mem_singleton.mpr (.name _ _)⟩⟩
  · refine .call rfl (by decide) (hfound (.compare .lt)) rfl ?_
    simp [Value.FirstOrder.name]
  · refine .call rfl (by decide) (hfound .sequence) rfl ?_
    refine List.forall_mem_cons.mpr ⟨?_, List.forall_mem_singleton.mpr ?_⟩
    · refine .call rfl (by decide) (hfound .display) rfl ?_
      simp [Value.FirstOrder.name]
    · refine .call rfl (by decide) (hfound .list) rfl ?_
      simp [Value.FirstOrder.name]

/-- Both calls display a line and then fail at the name that is missing. -/
theorem sampleCode_matches :
    (evaluate 9 (sampleApplication (.expander (.made 3 0) ["a", "b"] sampleCode))
      ⟨0⟩ (Session.fresh 8 {} false)).Matches
    (evaluate 9
      (sampleApplication (.closure (.made 3 1) ["a", "b"] sampleCode ⟨0⟩))
      ⟨0⟩ (Session.fresh 8 {} false)) := by
  have hstocked := Session.fresh_stocked (H := Empty) 8 {} false
  apply expander_call_matches ["a", "b"] sampleCode (.made 3 0) (.made 3 1)
    [.int 1, .int 2] rfl
  · exact ⟨_, _, _, _, rfl, rfl, .inl ⟨rfl, rfl⟩⟩
  · exact ⟨_, _, _, _, rfl, rfl, .inl ⟨rfl, rfl⟩⟩
  · rintro arguments t ⟨_ | steps, hends⟩
    · cases hends
    · cases hends
      exact ⟨by decide, sampleCode_firstOrder hstocked⟩

end Lisp
