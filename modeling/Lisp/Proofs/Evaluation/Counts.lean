import Lisp.Proofs.Evaluation.Turns

/-!
Counting operands.  A builtin declares how many operands it takes, and counts
them once more when it is called.  The two counts agree: a number that is not
declared is refused by the builtin itself just as by the check before it, and
with a declared number nobody complains of the count but the evaluation of an
operand.
-/

namespace Lisp

variable {H α β : Type}

section Causes

theorem Except.error_of_map {ε : Type} {x : Except ε α} {f : α → β} {e : ε}
    (hfailed : x.map f = .error e) : x = .error e := by
  cases x with
  | ok a => cases hfailed
  | error e => exact congrArg Except.error (Except.error.inj hfailed)

theorem Number.integerOp_error {op : ArithOp} {m n : Int} {cause : Cause}
    (hfailed : Number.integerOp op m n = .error cause) :
    cause = .divisionByZero := by
  cases op with
  | div =>
      simp only [integerOp] at hfailed
      split at hfailed
      · exact (Except.error.inj hfailed).symm
      · cases hfailed
  | _ => cases hfailed

theorem Number.wordOp_error {op : ArithOp} {a b : Int64} {cause : Cause}
    (hfailed : Number.wordOp op a b = .error cause) :
    cause = .divisionByZero := by
  cases op with
  | div =>
      simp only [wordOp] at hfailed
      split at hfailed
      · exact (Except.error.inj hfailed).symm
      · cases hfailed
  | _ => cases hfailed

theorem Number.widenOp_error {op : ArithOp} {a b : Int64} {cause : Cause}
    (hfailed : Number.widenOp op a b = .error cause) :
    cause = .divisionByZero := by
  unfold widenOp at hfailed
  split at hfailed
  · cases hfailed
  · exact integerOp_error (Except.error_of_map hfailed)
  · next trouble hrefused =>
      cases hfailed
      exact wordOp_error hrefused

theorem Number.floatOp_error {op : ArithOp} {x y : Float} {cause : Cause}
    (hfailed : Number.floatOp op x y = .error cause) :
    cause = .divisionByZero := by
  cases op with
  | div =>
      simp only [floatOp] at hfailed
      split at hfailed
      · exact (Except.error.inj hfailed).symm
      · cases hfailed
  | _ => cases hfailed

/-- The only thing wrong with numbers is a divisor of zero. -/
theorem Number.combine_error {op : ArithOp} {a b : Number} {cause : Cause}
    (hfailed : a.combine op b = .error cause) : cause = .divisionByZero := by
  unfold combine at hfailed
  split at hfailed
  · exact widenOp_error hfailed
  · exact integerOp_error (Except.error_of_map hfailed)
  · exact integerOp_error (Except.error_of_map hfailed)
  · exact integerOp_error (Except.error_of_map hfailed)
  · exact floatOp_error (Except.error_of_map hfailed)
  · exact floatOp_error (Except.error_of_map hfailed)

theorem Value.arithmetic_error {op : ArithOp} {a b : Value H} {cause : Cause}
    (hfailed : a.arithmetic op b = .error cause) :
    cause.kind = .divisionByZero ∨ cause.kind = .typeMismatch := by
  unfold Value.arithmetic at hfailed
  split at hfailed
  · rw [Number.combine_error (Except.error_of_map hfailed)]
    exact .inl rfl
  · cases hfailed
    exact .inr rfl

theorem Value.order_error {a b : Value H} {cause : Cause}
    (hfailed : a.order b = .error cause) : cause.kind = .typeMismatch := by
  unfold Value.order at hfailed
  split at hfailed
  · cases hfailed
  · cases hfailed
    rfl

theorem Value.equalAtom_error {a b : Value H} {cause : Cause}
    (hfailed : a.equalAtom b = .error cause) : cause.kind = .typeMismatch := by
  unfold Value.equalAtom at hfailed
  repeat' split at hfailed
  all_goals cases hfailed
  rfl

theorem equalAll_error {todo : List (Value H × Value H × Bool)} {cause : Cause}
    (hfailed : equalAll todo = .error cause) : cause.kind = .typeMismatch := by
  induction todo using equalAll.induct with
  | case1 => simp [equalAll] at hfailed
  | case2 a d p j b e q inTail todo ih =>
      rw [equalAll, if_pos rfl] at hfailed
      exact ih hfailed
  | case3 i a d p j b e q inTail todo hdiffer ih =>
      rw [equalAll, if_neg hdiffer] at hfailed
      exact ih hfailed
  | case4 a b inTail todo hapart hends =>
      rw [equalAll.eq_3 _ _ _ _ hapart, if_pos hends] at hfailed
      cases hfailed
  | case5 a b inTail todo hapart hgoes hsame ih =>
      rw [equalAll.eq_3 _ _ _ _ hapart, if_neg hgoes, hsame] at hfailed
      exact ih hfailed
  | case6 a b inTail todo hapart hgoes hdiffer =>
      rw [equalAll.eq_3 _ _ _ _ hapart, if_neg hgoes, hdiffer] at hfailed
      cases hfailed
  | case7 a b inTail todo hapart hgoes cause hfails =>
      rw [equalAll.eq_3 _ _ _ _ hapart, if_neg hgoes, hfails] at hfailed
      cases hfailed
      exact Value.equalAtom_error hfails

theorem collectNames_error {form : String} {seen : List String}
    {items : List (Value H)} {fault : Fault}
    (hfailed : collectNames form seen items = .error fault) :
    fault.kind = .malformedSpecialForm := by
  induction items generalizing seen with
  | nil => cases hfailed
  | cons item items ih =>
      cases item with
      | ref name own =>
          simp only [collectNames] at hfailed
          split at hfailed
          · cases hfailed
            rfl
          · exact ih hfailed
      | _ =>
          cases hfailed
          rfl

theorem parameterNames_error {form : String} {params : Value H}
    {fault : Fault} (hfailed : parameterNames form params = .error fault) :
    fault.kind = .malformedSpecialForm := by
  unfold parameterNames at hfailed
  split at hfailed
  · exact collectNames_error hfailed
  · cases hfailed
    rfl

end Causes

/-- Whether a computation ends in no fault but those, with the sessions they
leave, that `p` allows. -/
def FailsOnly (p : Fault → Session H → Prop) (x : Eval H α) : Prop :=
  ∀ s fault t, x s = .fault fault t → p fault t

namespace FailsOnly

variable {p : Fault → Session H → Prop}

theorem pure (a : α) : FailsOnly p (Pure.pure a : Eval H α) := by
  rintro s fault t ⟨⟩

theorem fail {fault : Fault} (hallowed : ∀ t, p fault t) :
    FailsOnly p (Eval.fail fault : Eval H α) := by
  rintro s _ _ ⟨⟩
  exact hallowed s

theorem ofExcept {result : Except Cause α}
    (hallowed : ∀ cause, result = .error cause → ∀ t, p { cause } t) :
    FailsOnly p (Eval.ofExcept result : Eval H α) := by
  cases result with
  | ok a => exact pure a
  | error cause => exact fail (hallowed cause rfl)

theorem bind {x : Eval H α} {f : α → Eval H β} (hfirst : FailsOnly p x)
    (hlater : ∀ a, FailsOnly p (f a)) : FailsOnly p (x >>= f) := by
  intro s fault t hfailed
  rw [Eval.bind_apply] at hfailed
  cases hends : x s with
  | value a mid =>
      rw [hends] at hfailed
      exact hlater a mid fault t hfailed
  | fault trouble mid =>
      rw [hends] at hfailed
      cases hfailed
      exact hfirst s fault t hends
  | unfinished =>
      rw [hends] at hfailed
      cases hfailed

theorem update (f : Session H → Session H) :
    FailsOnly p (Eval.update f) := by
  rintro s fault t ⟨⟩

theorem read (f : Session H → α) : FailsOnly p (Eval.read f) := by
  rintro s fault t ⟨⟩

theorem freshBatch : FailsOnly p (Eval.freshBatch : Eval H Nat) := by
  rintro s fault t ⟨⟩

end FailsOnly

/-- A fault that is no complaint of a number of operands, or that the evaluation
of one of the operands ended in. -/
def HandedUp (evaluator : Evaluator H) (operands : List (Value H))
    (scope : ScopeId) (fault : Fault) (t : Session H) : Prop :=
  fault.kind = .wrongArity →
    ∃ form ∈ operands, ∃ s, evaluator form scope s = .fault fault t

section HandedUp

variable {evaluator : Evaluator H} {operands : List (Value H)}
  {scope : ScopeId}

theorem HandedUp.of_kind {fault : Fault} (kind : FaultKind)
    (hknown : fault.kind = kind) (hother : kind ≠ .wrongArity) (t : Session H) :
    HandedUp evaluator operands scope fault t :=
  fun hmiscounted => absurd (hknown.symm.trans hmiscounted) hother

theorem evaluator_failsOnly {form : Value H} (hmem : form ∈ operands) :
    FailsOnly (HandedUp evaluator operands scope) (evaluator form scope) :=
  fun s _ _ hfailed _ => ⟨form, hmem, s, hfailed⟩

theorem emit_failsOnly (line : String) :
    FailsOnly (HandedUp evaluator operands scope) (Eval.emit line) := by
  intro s fault t hfailed
  unfold Eval.emit at hfailed
  split at hfailed
  · cases hfailed
  · cases hfailed
    exact .of_kind .io rfl (by decide) _

theorem takeParameters_failsOnly (form : String) (params : Value H) :
    FailsOnly (HandedUp evaluator operands scope)
      (takeParameters form params) := by
  unfold takeParameters
  cases htaken : parameterNames form params with
  | ok names => exact .pure names
  | error fault =>
      exact .fail (.of_kind _ (parameterNames_error htaken) (by decide))

theorem nameExpected_failsOnly (form : String) (other : Value H) :
    FailsOnly (HandedUp evaluator operands scope)
      (nameExpected form other : Eval H α) :=
  .fail (.of_kind .malformedSpecialForm rfl (by decide))

theorem runSequence_failsOnly {forms : List (Value H)}
    (hinside : ∀ form ∈ forms, form ∈ operands) :
    FailsOnly (HandedUp evaluator operands scope)
      (runSequence evaluator scope forms) := by
  induction forms with
  | nil => exact .pure _
  | cons form forms ih =>
      obtain ⟨hmem, hothers⟩ := List.forall_mem_cons.mp hinside
      cases forms with
      | nil => exact .pure _
      | cons next rest =>
          exact .bind (evaluator_failsOnly hmem) fun _ => ih hothers

/-- With a number of operands that it declares, a builtin does not complain of
the number itself. -/
theorem Builtin.call_failsOnly (op : Builtin)
    (haccepted : op.arity.check operands.length = .ok ()) :
    FailsOnly (HandedUp evaluator operands scope)
      (op.call evaluator operands scope) := by
  have hmistyped : ∀ {fault : Fault}, fault.kind = .typeMismatch →
      ∀ t, HandedUp evaluator operands scope fault t :=
    fun hkind => .of_kind _ hkind (by decide)
  cases op with
  | arith op =>
      obtain ⟨a, b, rfl⟩ := Arity.exists_two haccepted
      refine .bind (.ofExcept fun cause hfailed => ?_) fun _ => .pure _
      rcases Value.arithmetic_error hfailed with hkind | hkind
      · exact .of_kind _ hkind (by decide)
      · exact hmistyped hkind
  | compare test =>
      obtain ⟨a, b, rfl⟩ := Arity.exists_two haccepted
      exact .bind (.ofExcept fun _ hfailed => hmistyped (Value.order_error hfailed))
        fun _ => .pure _
  | equal =>
      obtain ⟨a, b, rfl⟩ := Arity.exists_two haccepted
      exact .bind (.ofExcept fun _ hfailed => hmistyped (equalAll_error hfailed))
        fun _ => .pure _
  | car | cdr =>
      obtain ⟨v, rfl⟩ := Arity.exists_one haccepted
      cases v with
      | pair => exact .pure _
      | _ => exact .fail (hmistyped rfl)
  | cons =>
      obtain ⟨head, rest, rfl⟩ := Arity.exists_two haccepted
      exact .bind .freshBatch fun _ => .pure _
  | list => exact .bind .freshBatch fun _ => .pure _
  | display => exact .bind (emit_failsOnly _) fun _ => .pure _
  | repr | quote =>
      obtain ⟨v, rfl⟩ := Arity.exists_one haccepted
      exact .pure _
  | define =>
      obtain ⟨target, form, rfl⟩ := Arity.exists_two haccepted
      cases target with
      | ref name place =>
          exact .bind (evaluator_failsOnly (by simp)) fun value =>
            .bind (.update _) fun _ => .bind (.update _) fun _ => .pure _
      | _ => exact nameExpected_failsOnly _ _
  | assign =>
      obtain ⟨target, form, rfl⟩ := Arity.exists_two haccepted
      cases target with
      | ref name place =>
          refine .bind (.read _) fun found => ?_
          cases found with
          | none => exact .fail (.of_kind .undefinedName rfl (by decide))
          | some owner =>
              exact .bind (evaluator_failsOnly (by simp)) fun value =>
                .bind (.update _) fun _ => .pure _
      | _ => exact nameExpected_failsOnly _ _
  | lambda | createMacro =>
      obtain ⟨params, body, rfl⟩ := Arity.exists_two haccepted
      exact .bind (takeParameters_failsOnly _ _) fun names =>
        .bind .freshBatch fun _ => .pure _
  | defineMacro =>
      obtain ⟨target, params, body, rfl⟩ := Arity.exists_three haccepted
      cases target with
      | ref name place =>
          exact .bind (takeParameters_failsOnly _ _) fun names =>
            .bind (.update _) fun _ => .bind .freshBatch fun batch =>
              .bind (.update _) fun _ => .pure _
      | _ => exact nameExpected_failsOnly _ _
  | sequence => exact runSequence_failsOnly fun _ hmem => hmem
  | conditional =>
      obtain ⟨condition, yes, no, rfl⟩ := Arity.exists_three haccepted
      refine .bind (evaluator_failsOnly (by simp)) fun value => ?_
      split
      · exact .pure _
      · exact .pure _
      · exact .fail (hmistyped rfl)

end HandedUp

/-- The count a builtin makes itself finds what the check before it finds. -/
theorem Builtin.call_of_refused {op : Builtin} {operands : List (Value H)}
    {cause : Cause} (hrefused : op.arity.check operands.length = .error cause)
    (evaluator : Evaluator H) (scope : ScopeId) :
    op.call evaluator operands scope = .fail { cause } := by
  cases hdeclared : op.arity with
  | exact count =>
      rw [hdeclared] at hrefused
      obtain ⟨hdiffer, rfl⟩ := Arity.exact_check_error hrefused
      exact call_of_wrong_count hdeclared hdiffer evaluator scope
  | atLeast least => cases op <;> cases hdeclared
  | any =>
      rw [hdeclared] at hrefused
      cases hrefused

/-- A number of operands that a builtin does not declare is refused by the
builtin as by the check, at no place and with the session as it was; with a
number that it declares, a wrong count is complained of only by the evaluation
of one of the operands. -/
theorem declared_count_decides (op : Builtin) (evaluator : Evaluator H)
    (operands : List (Value H)) (scope : ScopeId) (s : Session H) :
    (∀ cause, op.arity.check operands.length = .error cause →
      op.call evaluator operands scope s =
        .fault { cause, place := none } s) ∧
    (op.arity.check operands.length = .ok () → ∀ fault t,
      op.call evaluator operands scope s = .fault fault t →
      fault.kind = .wrongArity →
      ∃ form ∈ operands, ∃ mid, evaluator form scope mid = .fault fault t) := by
  constructor
  · intro cause hrefused
    rw [Builtin.call_of_refused hrefused]
    rfl
  · intro haccepted fault t hfailed
    exact Builtin.call_failsOnly op haccepted s fault t hfailed

/-- `(defmacro 5)` is refused for the number of its operands before what they
are, and the fault of `(define x (car))` is that of its operand. -/
theorem declared_count_decides_defmacro_define :
    let s : Session Empty := .fresh 8 {} false
    let here : ScopeId := ⟨0⟩
    let five : Value Empty := .int 5
    let short : Value Empty :=
      .pair (.made 0 0) (.ref "car" none) .nil none
    Builtin.defineMacro.call (evaluate 9) [five] here s =
        .fault { cause := .wrongArity "3" 1, place := none } s ∧
      ∃ form ∈ [.ref "x" none, short], ∃ mid,
        evaluate 9 form here mid =
          .fault { cause := .wrongArity "1" 0, place := none } s :=
  ⟨(declared_count_decides .defineMacro _ _ _ _).1 _ rfl,
    (declared_count_decides .define _ _ _ (.fresh 8 {} false)).2 rfl _ _ rfl
      rfl⟩

end Lisp
