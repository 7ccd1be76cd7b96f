import Lisp.Proofs.Evaluation.Activation
import Lisp.Proofs.Evaluation.Adequacy
import Lisp.Proofs.Places.Blame
import Mathlib

/-!
The parameters of procedures.  Procedures and macros are made of lists of distinct
names and of nothing else, and whatever moves them about, be it a binding, a cell
or an expansion that puts them into a body, leaves them as they are.  So the
scope of a call binds the parameters to the arguments one to one.
-/

namespace Lisp

variable {H : Type}

/-- A value in which every procedure and every macro has distinct parameters. -/
def Value.Distinct : Value H → Prop
  | .pair _ car cdr _ => car.Distinct ∧ cdr.Distinct
  | .closure _ params body _ => params.Nodup ∧ body.Distinct
  | .expander _ params body => params.Nodup ∧ body.Distinct
  | _ => True

/-- A session that binds names to such values only. -/
def Session.Distinct (s : Session H) : Prop :=
  s.AllBound Value.Distinct

/-- A task that is given such values only. -/
def Task.Distinct : Task H → Prop
  | .evaluate form _ | .value form _ => form.Distinct
  | .call operator operands _ _ =>
      operator.Distinct ∧ ∀ form ∈ operands, form.Distinct
  | .arguments operator done rest _ _ =>
      operator.Distinct ∧ (∀ v ∈ done, v.Distinct) ∧
        ∀ form ∈ rest, form.Distinct
  | .sequence forms _ _ => ∀ form ∈ forms, form.Distinct

theorem Value.distinct_hereditary :
    Value.Hereditary fun v : Value H => v.Distinct where
  plain v hflat := by
    cases v with
    | pair | closure | expander => cases hflat
    | _ => trivial
  pair _ _ _ _ := Iff.rfl

theorem Value.distinct_label (batch : Nat) (form : Datum) (index : Nat) :
    (label batch form index : Value H × Nat).1.Distinct := by
  induction form generalizing index with
  | pair car cdr place ihCar ihCdr => exact ⟨ihCar _, ihCdr _⟩
  | _ => trivial

theorem Value.Distinct.substitute {body : Value H} {params : List String}
    {arguments : List (Value H)} (hdistinct : body.Distinct)
    (hheld : ∀ v ∈ arguments, v.Distinct) (scope : ScopeId) :
    (body.substitute params (.ofLists params arguments) scope).Distinct :=
  distinct_hereditary.substituteFrom hdistinct
    (fun _ v hfound => hheld v (Bindings.mem_of_get?_ofLists hfound)) 0

/-- What comes of a task: a session and, if it has one, a value in which
parameters are distinct. -/
structure DistinctAfter (answer : Answer H) (t : Session H) : Prop where
  session : t.Distinct
  value : ∀ v, answer = .ok v → v.Distinct

section Steps

variable {s t mid : Session H} {answer : Answer H}

theorem DistinctAfter.of_value {v : Value H} (hsession : t.Distinct)
    (hdistinct : v.Distinct) : DistinctAfter (.ok v) t where
  session := hsession
  value := by
    rintro _ ⟨⟩
    exact hdistinct

theorem DistinctAfter.of_fault (hsession : t.Distinct) (fault : Fault) :
    DistinctAfter (.error fault) t where
  session := hsession
  value := nofun

/-- A builtin makes procedures and macros with distinct parameters only. -/
theorem Builtin.made_distinct {op : Builtin} {operands : List (Value H)}
    {scope : ScopeId} (hheld : ∀ v ∈ operands, v.Distinct) (v : Value H)
    (hmade : Made scope (op.values operands) (op.forms operands) v) :
    v.Distinct := by
  have hformsHold : ∀ form ∈ op.forms operands, form.Distinct :=
    fun form hmem => hheld form (mem_of_mem_forms hmem)
  refine hmade.holds Value.distinct_hereditary ?_ hformsHold ?_ ?_
  · exact fun v hmem => hheld v (mem_of_mem_values hmem)
  · exact fun _ _ body hdistinct hgiven => ⟨hdistinct, hformsHold body hgiven⟩
  · exact fun _ _ body hdistinct hgiven => ⟨hdistinct, hformsHold body hgiven⟩

theorem DistinctAfter.of_alone_value {op : Builtin}
    {operands : List (Value H)} {scope : ScopeId} {value : Value H}
    (hsession : s.Distinct) (hinert : op.evaluates = false)
    (hheld : ∀ v ∈ operands, v.Distinct)
    (hresult : op.alone operands scope s = .value (.done value) t) :
    DistinctAfter (.ok value) t := by
  obtain ⟨hmade, hworked⟩ := Builtin.alone_value hinert hresult
  exact .of_value (hsession.worked hworked (Builtin.made_distinct hheld))
    (Builtin.made_distinct hheld value hmade)

theorem DistinctAfter.of_alone_fault {op : Builtin}
    {operands : List (Value H)} {scope : ScopeId} {fault : Fault}
    (hsession : s.Distinct) (hinert : op.evaluates = false)
    (hheld : ∀ v ∈ operands, v.Distinct)
    (hresult : op.alone operands scope s = .fault fault t) (blamed : Fault) :
    DistinctAfter (.error blamed) t := by
  obtain ⟨-, hworked⟩ := Builtin.alone_fault hinert hresult
  exact .of_fault (hsession.worked hworked (Builtin.made_distinct hheld)) blamed

/-- Evaluation keeps parameters distinct, in the session and in its answer. -/
theorem BigStep.distinct {peak : Nat} {task : Task H}
    (hderived : BigStep peak task s answer t) (hsession : s.Distinct)
    (hgiven : task.Distinct) : DistinctAfter answer t := by
  induction hderived with
  | tooDeep => exact .of_fault (hsession.record _) _
  | deeper _ _ ih =>
      have hinside := ih hsession hgiven
      exact ⟨hinside.session, hinside.value⟩
  | literal => exact .of_value hsession hgiven
  | bound hfound => exact .of_value hsession (hsession.lookup hfound)
  | unbound | dotted | refused | miscounted | nameless | unassignable =>
      exact .of_fault hsession _
  | nothing => exact .of_value hsession trivial
  | headFails hshape _ _ ih =>
      subst hshape
      exact .of_fault (ih hsession hgiven.1).session _
  | application hshape hproper _ _ ih₁ ih₂ =>
      subst hshape
      obtain ⟨hhead, hrest⟩ := hgiven
      have hfirst := ih₁ hsession hhead
      have hoperands := Value.distinct_hereditary.items hrest hproper
      exact ih₂ hfirst.session ⟨hfirst.value _ rfl, hoperands⟩
  | operands _ _ _ ih =>
      exact ih hsession ⟨hgiven.1, List.forall_mem_nil _, hgiven.2⟩
  | operandFails _ ih =>
      obtain ⟨-, -, hrest⟩ := hgiven
      exact .of_fault (ih hsession (hrest _ List.mem_cons_self)).session _
  | operand _ _ ih₁ ih₂ =>
      obtain ⟨hoperator, hdone, hrest⟩ := hgiven
      obtain ⟨hform, hothers⟩ := List.forall_mem_cons.mp hrest
      have hfirst := ih₁ hsession hform
      have hlonger := List.forall_mem_append.mpr
        ⟨hdone, List.forall_mem_singleton.mpr (hfirst.value _ rfl)⟩
      exact ih₂ hfirst.session ⟨hoperator, hlonger, hothers⟩
  | function heager hresult =>
      exact .of_alone_value hsession (Builtin.evaluates_eq_false heager)
        hgiven.2.1 hresult
  | functionFails heager hresult =>
      exact .of_alone_fault hsession (Builtin.evaluates_eq_false heager)
        hgiven.2.1 hresult _
  | body _ _ ih =>
      obtain ⟨hclosure, hdone, -⟩ := hgiven
      exact ih (hsession.openScope _ hdone _) hclosure.2
  | expansion hcopied _ ih =>
      obtain ⟨hexpander, hdone, -⟩ := hgiven
      subst hcopied
      exact ih (Session.AllBound.record (hsession.openScope _ hdone _) _)
        (hexpander.2.substitute hdone _)
  | direct _ _ hinert hresult =>
      exact .of_alone_value hsession hinert hgiven.2 hresult
  | directFails _ _ hinert hresult =>
      exact .of_alone_fault hsession hinert hgiven.2 hresult _
  | conditionFails _ ih | conditionRefused _ _ ih =>
      exact .of_fault (ih hsession (hgiven.2 _ List.mem_cons_self)).session _
  | @branch _ _ _ yes no _ _ _ b _ _ _ _ _ ih₁ ih₂ =>
      have hfirst := ih₁ hsession (hgiven.2 _ List.mem_cons_self)
      have hchosen : (if b then yes else no).Distinct := by
        cases b <;> exact hgiven.2 _ (by simp)
      exact ih₂ hfirst.session hchosen
  | begin _ ih => exact ih hsession hgiven.2
  | last _ ih => exact ih hsession (hgiven _ List.mem_cons_self)
  | effectFails _ ih =>
      exact .of_fault (ih hsession (hgiven _ List.mem_cons_self)).session _
  | effect _ _ ih₁ ih₂ =>
      obtain ⟨hform, hrest⟩ := List.forall_mem_cons.mp hgiven
      exact ih₂ (ih₁ hsession hform).session hrest
  | definitionFails _ ih | assignmentFails _ _ ih =>
      exact .of_fault (ih hsession (hgiven.2 _ (by simp))).session _
  | definition _ ih =>
      have hinner := ih hsession (hgiven.2 _ (by simp))
      have hrecorded := hinner.session.record
      exact .of_value (Session.AllBound.bind (hrecorded _) _ _
        (hinner.value _ rfl)) trivial
  | assignment _ _ ih =>
      have hinner := ih hsession (hgiven.2 _ (by simp))
      exact .of_value (hinner.session.bind _ _ (hinner.value _ rfl)) trivial

/-- What a task involves is done with distinct parameters as well. -/
theorem Subtask.distinct {task inner : Task H}
    (hsub : Subtask (task, s) (inner, mid)) (hsession : s.Distinct)
    (hgiven : task.Distinct) : mid.Distinct ∧ inner.Distinct := by
  cases hsub with
  | deeper => exact ⟨hsession, hgiven⟩
  | head hshape =>
      subst hshape
      exact ⟨hsession, hgiven.1⟩
  | application hshape hproper hevaluated =>
      subst hshape
      obtain ⟨hhead, hrest⟩ := hgiven
      have hfirst := hevaluated.distinct hsession hhead
      have hoperands := Value.distinct_hereditary.items hrest hproper
      exact ⟨hfirst.session, hfirst.value _ rfl, hoperands⟩
  | operands =>
      exact ⟨hsession, hgiven.1, List.forall_mem_nil _, hgiven.2⟩
  | operand => exact ⟨hsession, hgiven.2.2 _ List.mem_cons_self⟩
  | others hevaluated =>
      obtain ⟨hoperator, hdone, hrest⟩ := hgiven
      obtain ⟨hform, hothers⟩ := List.forall_mem_cons.mp hrest
      have hfirst := hevaluated.distinct hsession hform
      have hlonger := List.forall_mem_append.mpr
        ⟨hdone, List.forall_mem_singleton.mpr (hfirst.value _ rfl)⟩
      exact ⟨hfirst.session, hoperator, hlonger, hothers⟩
  | body =>
      obtain ⟨hclosure, hdone, -⟩ := hgiven
      exact ⟨hsession.openScope _ hdone _, hclosure.2⟩
  | expansion hcopied =>
      obtain ⟨hexpander, hdone, -⟩ := hgiven
      subst hcopied
      exact ⟨Session.AllBound.record (hsession.openScope _ hdone _) _,
        hexpander.2.substitute hdone _⟩
  | condition => exact ⟨hsession, hgiven.2 _ List.mem_cons_self⟩
  | @branch _ _ yes no _ _ _ b _ hevaluated =>
      have hfirst := hevaluated.distinct hsession (hgiven.2 _ List.mem_cons_self)
      refine ⟨hfirst.session, ?_⟩
      show (if b then yes else no).Distinct
      cases b <;> exact hgiven.2 _ (by simp)
  | begin => exact ⟨hsession, hgiven.2⟩
  | last => exact ⟨hsession, hgiven _ List.mem_cons_self⟩
  | effect => exact ⟨hsession, hgiven _ List.mem_cons_self⟩
  | further hevaluated =>
      obtain ⟨hform, hrest⟩ := List.forall_mem_cons.mp hgiven
      exact ⟨(hevaluated.distinct hsession hform).session, hrest⟩
  | definition | assignment => exact ⟨hsession, hgiven.2 _ (by simp)⟩

theorem Subtask.distinct_path {task inner : Task H}
    (hpath : Relation.ReflTransGen Subtask (task, s) (inner, mid))
    (hsession : s.Distinct) (hgiven : task.Distinct) :
    mid.Distinct ∧ inner.Distinct := by
  generalize hlast : (inner, mid) = last at hpath
  induction hpath generalizing inner mid with
  | refl =>
      cases hlast
      exact ⟨hsession, hgiven⟩
  | @tail before _ _ hsub ih =>
      obtain ⟨between, here⟩ := before
      cases hlast
      obtain ⟨hsessionThere, hgivenThere⟩ := ih rfl
      exact hsub.distinct hsessionThere hgivenThere

end Steps

/-- What the scope of a call holds: the parameters, each bound to the argument at
its position, inside the scope that the procedure was created in. -/
structure Session.BindsOneToOne (s : Session H) (id : ScopeId)
    (params : List String) (arguments : List (Value H))
    (captured : ScopeId) : Prop where
  parent : s.forest.parent? id = some captured
  entries : (s.forest.bindings id).entries = params.zip arguments
  slots : ∀ name v, s.forest.get? id name = some v ↔
    ∃ i : Nat, params[i]? = some name ∧ arguments[i]? = some v

section Calls

variable {s t : Session H} {params : List String}
  {arguments : List (Value H)} {captured : ScopeId}

/-- Distinct parameters are bound one to one by the scope of a call. -/
theorem Session.bindsOneToOne_openScope (s : Session H)
    (hdistinct : params.Nodup) (hagree : arguments.length = params.length)
    (captured : ScopeId) :
    (s.openScope ⟨.ofLists params arguments, some captured⟩).BindsOneToOne
      s.nextScope params arguments captured := by
  have hopened : (s.openScope ⟨.ofLists params arguments,
      some captured⟩).forest.bindings s.nextScope =
        .ofLists params arguments := by
    simp [Session.openScope, Session.nextScope, Forest.bindings, Forest.push]
  have hpaired := Bindings.entries_ofLists hdistinct (Nat.le_of_eq hagree.symm)
  refine ⟨?_, by rw [hopened, hpaired], fun name v => ?_⟩
  · rw [Session.openScope, Forest.parent?_push]
    exact if_pos rfl
  · rw [Forest.get?, hopened, ← Bindings.mem_entries_iff, hpaired,
      List.mem_iff_getElem?]
    simp only [List.getElem?_zip_eq_some]

/-- A call of a procedure with as many arguments as it has parameters is the
evaluation of its body in the scope opened for it. -/
theorem BigStep.call_iff {peak : Nat} {id : ObjectId} {body : Value H}
    {scope : ScopeId} {place : Option Location} {answer : Answer H}
    (hagree : arguments.length = params.length) :
    BigStep peak (.arguments (.closure id params body captured) arguments []
      scope place) s answer t ↔
    BigStep peak (.value body s.nextScope)
      (s.openScope ⟨.ofLists params arguments, some captured⟩) answer t := by
  constructor
  · intro hderived
    cases hderived with
    | miscounted hdiffer => exact absurd hagree hdiffer
    | body _ hinside => exact hinside
  · exact .body hagree

end Calls

/-- `History start s`: sources evaluated one after another, each of them with
success or without, have led from the session `start` to `s`. -/
inductive History (start : Session Empty) : Session Empty → Prop where
  | start : History start start
  | source {steps : Nat} {text file : String} {s t : Session Empty}
      {answer : Answer Empty} (hbefore : History start s)
      (hends : evaluateSource steps text file s = .ofAnswer answer t) :
      History start t

/-- What evaluating forms one after another in `scope` involves: the evaluation of
each of them, provided that those before it have values, with all that this
involves in turn. -/
inductive FormsInvolve (scope : ScopeId) :
    List Datum → Session Empty → Task Empty × Session Empty → Prop where
  | here {form : Datum} {forms : List Datum} {s : Session Empty}
      {reached : Task Empty × Session Empty}
      (hpath : Relation.ReflTransGen Subtask
        (.evaluate (.ofDatum s.batches form) scope,
          { s with batches := s.batches + 1 }) reached) :
      FormsInvolve scope (form :: forms) s reached
  | later {form : Datum} {forms : List Datum} {s mid : Session Empty}
      {value : Value Empty} {reached : Task Empty × Session Empty}
      (hevaluated : Evaluates (.ofDatum s.batches form) scope
        { s with batches := s.batches + 1 } (.ok value) mid)
      (hrest : FormsInvolve scope forms mid reached) :
      FormsInvolve scope (form :: forms) s reached

/-- What evaluating a source involves. -/
def SourceInvolves (text file : String) (s : Session Empty)
    (reached : Task Empty × Session Empty) : Prop :=
  ∃ forms, read text file = .ok forms ∧ FormsInvolve s.root forms s reached

section Sources

variable {steps : Nat} {s t : Session Empty} {answer : Answer Empty}

theorem FormsEvaluate.distinct {scope : ScopeId} {last : Value Empty}
    {forms : List Datum}
    (hevaluates : FormsEvaluate steps scope last forms s answer t)
    (hsession : s.Distinct) (hgiven : last.Distinct) :
    DistinctAfter answer t := by
  have hform : ∀ {form : Datum} {s : Session Empty} reply {mid},
      evaluateForm steps scope form s = .ofAnswer reply mid → s.Distinct →
      DistinctAfter reply mid := by
    intro form s reply mid hends hsession
    obtain ⟨peak, hderived⟩ := evaluateForm_bigStep hends
    exact hderived.distinct hsession (Value.distinct_label _ form 0)
  induction hevaluates with
  | done => exact .of_value hsession hgiven
  | fails hfailed => exact hform (.error _) hfailed hsession
  | next hevaluated _ ih =>
      have hfirst := hform (.ok _) hevaluated hsession
      exact ih hfirst.session (hfirst.value _ rfl)

theorem evaluateSource_distinct {text file : String} (hsession : s.Distinct)
    (hends : evaluateSource steps text file s = .ofAnswer answer t) :
    DistinctAfter answer t := by
  cases hreads : read text file with
  | ok forms =>
      rw [evaluateSource_of_read steps hreads] at hends
      exact (FormsEvaluate.of_evaluateForms hends).distinct hsession trivial
  | error trouble =>
      rw [evaluateSource_of_refused steps hreads] at hends
      cases answer with
      | ok value => cases hends
      | error fault =>
          cases hends
          exact .of_fault hsession _

theorem FormsInvolve.distinct {scope : ScopeId} {forms : List Datum}
    {reached : Task Empty × Session Empty}
    (hinvolves : FormsInvolve scope forms s reached) (hsession : s.Distinct) :
    reached.2.Distinct ∧ reached.1.Distinct := by
  induction hinvolves with
  | @here form forms s reached hpath =>
      exact Subtask.distinct_path hpath hsession (Value.distinct_label _ form 0)
  | @later form forms s mid value reached hevaluated hrest ih =>
      obtain ⟨peak, hderived⟩ := hevaluated.bigStep
      have hgiven := Value.distinct_label (H := Empty) s.batches form 0
      exact ih (hderived.distinct hsession hgiven).session

theorem Session.fresh_distinct (limit : Nat) (sink : Sink)
    (recording : Bool) :
    (Session.fresh limit sink recording : Session Empty).Distinct := by
  intro id name v hfound
  rcases Session.fresh_get?_cases hfound with ⟨op, rfl⟩ | rfl <;> trivial

theorem History.distinct {limit : Nat} {sink : Sink} {recording : Bool}
    (hhistory : History (.fresh limit sink recording) s) : s.Distinct := by
  induction hhistory with
  | start => exact Session.fresh_distinct limit sink recording
  | source _ hends ih => exact (evaluateSource_distinct ih hends).session

end Sources

/-- In a session that sources have led to, however the evaluation of each of them
ended, every procedure and every macro has distinct parameters, wherever it is:
bound to a name, in a cell, in the body of another, or the value of one more
source.  Parameters are taken from proper lists of distinct names and from
nothing else, in their order.  And so every call of a procedure that one more
source involves, with as many arguments as it has parameters, goes on with the
body of the procedure in a scope that binds the parameters, and nothing else, to
the arguments at their positions, inside the scope that was captured. -/
theorem parameters_bind_one_to_one (limit : Nat) (sink : Sink)
    (recording : Bool) (s : Session Empty)
    (hhistory : History (.fresh limit sink recording) s) :
    s.Distinct ∧
    (∀ steps text file value t,
      evaluateSource steps text file s = .value value t → value.Distinct) ∧
    (∀ (form : String) (params : Value Empty) (names : List String),
      parameterNames form params = .ok names ↔
        ∃ items, params.items? = some items ∧
          items.map Value.refName? = names.map some ∧ names.Nodup) ∧
    ∀ text file task mid, SourceInvolves text file s (task, mid) →
      mid.Distinct ∧ task.Distinct ∧
      ∀ id params body captured arguments scope place,
        task = .arguments (.closure id params body captured) arguments [] scope
          place →
        arguments.length = params.length →
        let inner := mid.openScope ⟨.ofLists params arguments, some captured⟩
        inner.BindsOneToOne mid.nextScope params arguments captured ∧
        ∀ peak answer t, BigStep peak task mid answer t ↔
          BigStep peak (.value body mid.nextScope) inner answer t := by
  have hsession := hhistory.distinct
  refine ⟨hsession, ?_, fun _ _ _ => parameterNames_eq_ok_iff, ?_⟩
  · intro steps text file value t hends
    have hended : evaluateSource steps text file s =
        .ofAnswer (.ok value) t := hends
    exact (evaluateSource_distinct hsession hended).value value rfl
  · rintro text file task mid ⟨forms, hreads, hinvolves⟩
    obtain ⟨hsessionThere, hgiven⟩ := hinvolves.distinct hsession
    refine ⟨hsessionThere, hgiven, ?_⟩
    rintro id params body captured arguments scope place rfl hagree
    have hdistinct : params.Nodup := hgiven.1.1
    exact ⟨mid.bindsOneToOne_openScope hdistinct hagree captured,
      fun peak answer t => BigStep.call_iff hagree⟩

/-- `swap`, as `(define swap (lambda (x y) (cons y x)))` makes it. -/
def sampleSwap : Value Empty :=
  .closure (.made 1 0) ["x", "y"]
    (.pair (.made 0 8) (.ref "cons" (some ⟨"one", 1, 29⟩))
      (.pair (.made 0 9) (.ref "y" (some ⟨"one", 1, 34⟩))
        (.pair (.made 0 10) (.ref "x" (some ⟨"one", 1, 36⟩)) .nil none) none)
      (some ⟨"one", 1, 28⟩)) ⟨0⟩

/-- A session that knows `swap` and has refused parameters that repeat. -/
def sampleSwapped : Session Empty :=
  { (Session.fresh 8 {} false).bind ⟨0⟩ "swap" sampleSwap with batches := 3 }

/-- `(swap 1 2)` involves a call that binds `x` to one and `y` to two. -/
theorem sampleSwap_binds_one_to_one :
    ∃ mid : Session Empty,
      SourceInvolves "(swap 1 2)" "three" sampleSwapped
        (.arguments sampleSwap [.int 1, .int 2] [] ⟨0⟩
          (some ⟨"three", 1, 1⟩), mid) ∧
      (mid.openScope ⟨.ofLists ["x", "y"] [.int 1, .int 2],
        some ⟨0⟩⟩).BindsOneToOne mid.nextScope ["x", "y"]
          [.int 1, .int 2] ⟨0⟩ := by
  have hdefined : evaluateSource 9 "(define swap (lambda (x y) (cons y x)))"
      "one" (.fresh 8 {} false) = .ofAnswer (.ok .nil)
        { sampleSwapped with batches := 2 } := by cbv
  have hrefused : evaluateSource 9 "(lambda (x x) x)" "two"
      { sampleSwapped with batches := 2 } = .ofAnswer
        (.error { cause := .malformed "lambda" (.parameterRepeated "x")
                  place := some ⟨"two", 1, 12⟩ }) sampleSwapped := by cbv
  have hhistory : History (.fresh 8 {} false) sampleSwapped :=
    (History.start.source hdefined).source hrefused
  have hspelled : read "(swap 1 2)" "three" = .ok
      [.pair (.ref "swap" (some ⟨"three", 1, 2⟩))
        (.pair (.int 1) (.pair (.int 2) .nil none) none)
        (some ⟨"three", 1, 1⟩)] := by cbv
  let below : Session Empty := { sampleSwapped with batches := 4, depth := 1 }
  have hswap : below.forest.lookup ⟨0⟩ "swap" = some sampleSwap := by cbv
  have hnamed : BigStep 1
      (.evaluate (.ref "swap" (some ⟨"three", 1, 2⟩)) ⟨0⟩) below
      (.ok sampleSwap) below := .name (by decide) hswap
  have hnumber : ∀ n : Int64, BigStep 1 (.evaluate (.int n) ⟨0⟩) below
      (.ok (.int n)) below := fun n => .constant (by decide) rfl
  have hinvolved : SourceInvolves "(swap 1 2)" "three" sampleSwapped
      (.arguments sampleSwap [.int 1, .int 2] [] ⟨0⟩
        (some ⟨"three", 1, 1⟩), below) := by
    refine ⟨_, hspelled, .here ?_⟩
    refine .head (.deeper (by decide)) ?_
    refine .head (.application rfl rfl hnamed) ?_
    refine .head (.operands rfl rfl) ?_
    refine .head (.others (hnumber 1)) ?_
    exact .head (.others (hnumber 2)) .refl
  obtain ⟨-, -, -, hcalls⟩ :=
    parameters_bind_one_to_one 8 {} false sampleSwapped hhistory
  obtain ⟨-, -, hbinds⟩ := hcalls _ _ _ _ hinvolved
  exact ⟨below, hinvolved, (hbinds _ _ _ _ _ _ _ rfl rfl).1⟩

end Lisp
