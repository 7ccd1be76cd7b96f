import Lisp.Proofs.Arithmetic.Exactness
import Lisp.Proofs.Evaluation.Limit
import Mathlib.Data.List.Forall2

/-!
Procedures at work.  What a derivation looks like for the parts that procedures
are written with: names, constants, functions of two operands, choices, and
calls of procedures made at the top level.  Each comes with the exact number of
evaluations under way at its busiest moment.
-/

namespace Lisp

variable {H : Type}

/-- A list of forms, without places. -/
def Datum.form (items : List Datum) : Datum :=
  .chain items .nil

/-- Whether a value is a form that has been taken in, whatever numbers its cells
were given. -/
def Value.CopyOf (v : Value H) (form : Datum) : Prop :=
  ∃ batch index, v = (label batch form index).1

section Copies

theorem Value.copyOf_ofDatum (batch : Nat) (form : Datum) :
    (ofDatum batch form : Value H).CopyOf form :=
  ⟨batch, 0, rfl⟩

/-- The elements of a list are copies of the forms in it. -/
theorem Value.CopyOf.items {v : Value H} {forms : List Datum}
    (hcopy : v.CopyOf (.form forms)) :
    ∃ values, v.items? = some values ∧
      List.Forall₂ Value.CopyOf values forms := by
  obtain ⟨batch, index, rfl⟩ := hcopy
  induction forms generalizing index with
  | nil => exact ⟨[], rfl, .nil⟩
  | cons form forms ih =>
      obtain ⟨values, hlisted, hcopies⟩ :=
        ih (label batch form (index + 1) : Value H × Nat).2
      refine ⟨(label batch form (index + 1)).1 :: values, ?_,
        .cons ⟨batch, index + 1, rfl⟩ hcopies⟩
      have hrest := congrArg
        (Option.map ((label batch form (index + 1)).1 :: ·)) hlisted
      exact hrest

/-- A call of a named operator, taken in. -/
theorem Value.CopyOf.call {v : Value H} {name : String} {forms : List Datum}
    (hcopy : v.CopyOf (.form (.ref name none :: forms))) :
    ∃ id rest operands, v = .pair id (.ref name none) rest none ∧
      rest.items? = some operands ∧
      List.Forall₂ Value.CopyOf operands forms := by
  obtain ⟨batch, index, rfl⟩ := hcopy
  have hrest : (label batch (.form forms) (index + 1) : Value H × Nat).1.CopyOf
      (.form forms) := ⟨batch, index + 1, rfl⟩
  obtain ⟨operands, hlisted, hcopies⟩ := hrest.items
  exact ⟨_, _, operands, rfl, hlisted, hcopies⟩

theorem Value.CopyOf.eq_ref {v : Value H} {name : String}
    {place : Option Location} (hcopy : v.CopyOf (.ref name place)) :
    v = .ref name place := by
  obtain ⟨batch, index, rfl⟩ := hcopy
  rfl

theorem Value.CopyOf.eq_int {v : Value H} {n : Int64}
    (hcopy : v.CopyOf (.int n)) : v = .int n := by
  obtain ⟨batch, index, rfl⟩ := hcopy
  rfl

end Copies

section Parts

variable {form : Value H} {scope : ScopeId} {s t : Session H}
  {answer : Answer H}

/-- A form whose value leaves the session as it is. -/
theorem BigStep.evaluate_of_value {peak : Nat} {value : Value H}
    (hroom : s.depth < s.limit)
    (hinside : BigStep peak (.value form scope) (s.atDepth (s.depth + 1))
      (.ok value) (s.atDepth (s.depth + 1))) :
    BigStep (peak + 1) (.evaluate form scope) s (.ok value) s :=
  .deeper hroom hinside

theorem BigStep.name {name : String} {place : Option Location}
    {value : Value H} (hroom : s.depth < s.limit)
    (hfound : s.forest.lookup scope name = some value) :
    BigStep 1 (.evaluate (.ref name place) scope) s (.ok value) s :=
  .evaluate_of_value hroom (.bound hfound)

theorem BigStep.constant (hroom : s.depth < s.limit)
    (hplain : form.isLiteral = true) :
    BigStep 1 (.evaluate form scope) s (.ok form) s :=
  .evaluate_of_value hroom (.literal hplain)

/-- A call whose operator is named comes down to the call of what the name
stands for. -/
theorem BigStep.namedCall {name : String} {forms : List Datum}
    {operator : Value H} (hcopy : form.CopyOf (.form (.ref name none :: forms)))
    (hroom : s.depth < s.limit)
    (hfound : s.forest.lookup scope name = some operator) :
    ∃ operands, List.Forall₂ Value.CopyOf operands forms ∧
      ∀ {peak : Nat} {answer : Answer H} {t : Session H},
        BigStep peak (.call operator operands scope form.place) s answer t →
        BigStep (max 1 peak) (.value form scope) s answer t := by
  obtain ⟨id, rest, operands, hshape, hproper, hcopies⟩ := hcopy.call
  refine ⟨operands, hcopies, fun happlied => ?_⟩
  exact .application hshape hproper (.name hroom hfound) happlied

/-- A function of two operands, the first of which leaves the session as it
is. -/
theorem BigStep.binary {op : Builtin} {left right : Nat}
    {place : Option Location} {a b x y value : Value H}
    (heager : op.evaluatesOperands = true)
    (hcheck : op.arity.check 2 = .ok ())
    (hfirst : BigStep left (.evaluate a scope) s (.ok x) s)
    (hsecond : BigStep right (.evaluate b scope) s (.ok y) t)
    (hresult : op.alone [x, y] scope t = .value (.done value) t) :
    BigStep (max left right)
      (.call (.native (.builtin op)) [a, b] scope place) s (.ok value) t := by
  have hcalled : BigStep 0
      (.arguments (.native (.builtin op)) [x, y] [] scope place) t
      (.ok value) t := .function heager hresult
  have hlast : BigStep (max right 0)
      (.arguments (.native (.builtin op)) [x] [b] scope place) s
      (.ok value) t := .operand hsecond hcalled
  rw [Nat.max_zero] at hlast
  exact .operands hcheck heager (.operand hfirst hlast)

/-- A function of what a name stands for and a constant. -/
theorem BigStep.withConstant {op : Builtin} {head key : String} {n : Int64}
    {found value : Value H}
    (hcopy : form.CopyOf (.form [.ref head none, .ref key none, .int n]))
    (heager : op.evaluatesOperands = true)
    (hcheck : op.arity.check 2 = .ok ()) (hroom : s.depth + 2 ≤ s.limit)
    (hoperator : s.forest.lookup scope head = some (.native (.builtin op)))
    (hoperand : s.forest.lookup scope key = some found)
    (hresult : ∀ t, op.alone [found, .int n] scope t = .value (.done value) t) :
    BigStep 2 (.evaluate form scope) s (.ok value) s := by
  let below := s.atDepth (s.depth + 1)
  have hroomBelow : below.depth < below.limit := hroom
  have hoperatorBelow : below.forest.lookup scope head =
      some (.native (.builtin op)) := hoperator
  obtain ⟨operands, hcopies, hcalled⟩ :=
    BigStep.namedCall hcopy hroomBelow hoperatorBelow
  obtain _ | ⟨hfirst, _ | ⟨hsecond, ⟨⟩⟩⟩ := hcopies
  obtain rfl := hfirst.eq_ref
  obtain rfl := hsecond.eq_int
  have hinside : BigStep 1 (.value form scope) below (.ok value) below :=
    hcalled (.binary heager hcheck (.name hroomBelow hoperand)
      (.constant hroomBelow rfl) (hresult below))
  exact .evaluate_of_value (by omega) hinside

/-- Operands that all leave the session as it is. -/
theorem BigStep.operands_settled {early late : Nat} {operator : Value H}
    {place : Option Location} {operands values : List (Value H)}
    (hevaluated : List.Forall₂ (fun operand value =>
      BigStep early (.evaluate operand scope) s (.ok value) s) operands values)
    (hsome : operands ≠ []) (done : List (Value H))
    (happlied : BigStep late
      (.arguments operator (done ++ values) [] scope place) s answer t) :
    BigStep (max early late) (.arguments operator done operands scope place) s
      answer t := by
  induction hevaluated generalizing done with
  | nil => exact absurd rfl hsome
  | @cons operand value operands values hfirst hrest ih =>
      cases hrest with
      | nil => exact .operand hfirst happlied
      | cons =>
          rw [List.append_cons] at happlied
          have hothers := BigStep.operand hfirst (ih (List.cons_ne_nil _ _)
            (done ++ [value]) happlied)
          rwa [← Nat.max_assoc, Nat.max_self] at hothers

/-- The call of a procedure on operands that leave the session as it is. -/
theorem BigStep.invocation {early late : Nat} {id : ObjectId}
    {params : List String} {body : Value H} {captured : ScopeId}
    {place : Option Location} {operands values : List (Value H)}
    (hevaluated : List.Forall₂ (fun operand value =>
      BigStep early (.evaluate operand scope) s (.ok value) s) operands values)
    (hsome : operands ≠ []) (hagree : values.length = params.length)
    (hinside : BigStep late (.value body s.nextScope)
      (s.openScope ⟨.ofLists params values, .some captured⟩) answer t) :
    BigStep (max early late)
      (.call (.closure id params body captured) operands scope place) s
      answer t :=
  .operands rfl rfl (.operands_settled hevaluated hsome [] (.body hagree hinside))

theorem Builtin.alone_arith {op : ArithOp} {a b value : Value H}
    (hresult : a.arithmetic op b = .ok value) (scope : ScopeId)
    (s : Session H) :
    (Builtin.arith op).alone [a, b] scope s = .value (.done value) s := by
  simp only [alone, call, hresult]
  rfl

theorem Builtin.alone_compare {test : Comparison} {a b : Value H}
    {order : Option Ordering} (hordered : a.order b = .ok order)
    (scope : ScopeId) (s : Session H) :
    (Builtin.compare test).alone [a, b] scope s =
      .value (.done (.bool (test.holds order))) s := by
  simp only [alone, call, hordered]
  rfl

end Parts

/-- Scopes of which the root binds every builtin under its own name. -/
structure Forest.Stocked (forest : Forest H) (root : ScopeId) : Prop where
  root_lt : root.index < forest.scopes.size
  builtins : ∀ op : Builtin,
    forest.get? root op.name = some (.native (.builtin op))

/-- Scopes of which the root also binds a procedure to a name of its own. -/
structure Forest.Equipped (forest : Forest H) (root : ScopeId) (name : String)
    (procedure : Value H) : Prop extends forest.Stocked root where
  procedure : forest.get? root name = some procedure

/-- A scope right inside another, with bindings of its own. -/
structure Forest.Inside (forest : Forest H) (root scope : ScopeId)
    (own : Bindings (Value H)) : Prop where
  parent : forest.parent? scope = some root
  younger : root.index < scope.index
  own : ∀ name, forest.get? scope name = own.get? name

section Scopes

variable {forest : Forest H} {root scope : ScopeId} {name : String}
  {procedure : Value H}

/-- A name that no builtin has can be given to a procedure. -/
theorem Forest.Stocked.set (hstocked : forest.Stocked root)
    (hnew : ∀ op : Builtin, op.name ≠ name) (procedure : Value H) :
    (forest.set root name procedure).Equipped root name procedure := by
  have hbound : ∀ key, (forest.set root name procedure).get? root key =
      if key = name then some procedure else forest.get? root key := by
    intro key
    rw [Forest.get?_set]
    simp only [true_and, hstocked.root_lt, and_true]
  refine ⟨⟨?_, ?_⟩, ?_⟩
  · rw [Forest.size_set]
    exact hstocked.root_lt
  · intro op
    rw [hbound, if_neg (hnew op), hstocked.builtins]
  · rw [hbound, if_pos rfl]

theorem Forest.Equipped.push (hequipped : forest.Equipped root name procedure)
    (opened : Scope H) : (forest.push opened).Equipped root name procedure := by
  have hold : ∀ key, (forest.push opened).get? root key =
      forest.get? root key := by
    intro key
    rw [Forest.get?_push, if_neg (Nat.ne_of_lt hequipped.root_lt)]
  refine ⟨⟨?_, ?_⟩, ?_⟩
  · rw [Forest.size_push]
    exact Nat.lt_succ_of_lt hequipped.root_lt
  · intro op
    rw [hold, hequipped.builtins]
  · rw [hold, hequipped.procedure]

/-- A scope that is opened inside another. -/
theorem Forest.inside_push (hexist : root.index < forest.scopes.size)
    (own : Bindings (Value H)) :
    (forest.push ⟨own, some root⟩).Inside root ⟨forest.scopes.size⟩ own := by
  constructor
  · rw [Forest.parent?_push, if_pos rfl]
  · exact hexist
  · intro key
    rw [Forest.get?_push, if_pos rfl]

/-- Names without a binding inside stand for what they stand for outside. -/
theorem Forest.Inside.lookup {own : Bindings (Value H)}
    (hinside : forest.Inside root scope own) (key : String) :
    forest.lookup scope key = (own.get? key).or (forest.lookup root key) := by
  rw [Forest.lookup_eq, hinside.own, hinside.parent]
  simp only [hinside.younger, if_true]

end Scopes

/-- A session at work in a call of a top-level procedure: the call has opened a
scope for the arguments, right inside the root. -/
structure Session.InCall (s : Session H) (name : String) (id : ObjectId)
    (params : List String) (body : Value H) (scope : ScopeId)
    (values : List (Value H)) : Prop where
  equipped : s.forest.Equipped s.root name (.closure id params body s.root)
  distinct : params.Nodup
  agree : values.length = params.length
  inside : s.forest.Inside s.root scope (.ofLists params values)

section Calls

variable {s : Session H} {name key : String} {id : ObjectId}
  {params : List String} {body value : Value H} {scope : ScopeId}
  {values : List (Value H)}

/-- Parameters stand for the arguments, one by one. -/
theorem Session.InCall.parameter
    (hcall : s.InCall name id params body scope values)
    (hmem : (key, value) ∈ params.zip values) :
    s.forest.lookup scope key = some value := by
  rw [hcall.inside.lookup,
    Bindings.get?_ofLists_of_mem hcall.distinct hcall.agree.ge hmem,
    Option.some_or]

/-- Other names stand for what the root scope binds them to. -/
theorem Session.InCall.lookup_root
    (hcall : s.InCall name id params body scope values) (hother : key ∉ params)
    (hbound : s.forest.get? s.root key = some value) :
    s.forest.lookup scope key = some value := by
  rw [hcall.inside.lookup, Bindings.get?_ofLists_of_not_mem hother values,
    Option.none_or]
  exact Forest.lookup_of_get? hbound

theorem Session.InCall.builtin
    (hcall : s.InCall name id params body scope values) (op : Builtin)
    (hother : op.name ∉ params) :
    s.forest.lookup scope op.name = some (.native (.builtin op)) :=
  hcall.lookup_root hother (hcall.equipped.builtins op)

/-- The procedure can call itself. -/
theorem Session.InCall.itself
    (hcall : s.InCall name id params body scope values) (hother : name ∉ params) :
    s.forest.lookup scope name = some (.closure id params body s.root) :=
  hcall.lookup_root hother hcall.equipped.procedure

/-- A session at any depth is in the call once it has opened the scope for it. -/
theorem Session.inCall_openScope
    (hequipped : s.forest.Equipped s.root name (.closure id params body s.root))
    (hdistinct : params.Nodup) (values : List (Value H))
    (hagree : values.length = params.length) (depth : Nat) :
    ((s.atDepth depth).openScope
      ⟨.ofLists params values, some s.root⟩).InCall name id params body
        s.nextScope values where
  equipped := hequipped.push _
  distinct := hdistinct
  agree := hagree
  inside := Forest.inside_push hequipped.root_lt _

end Calls

theorem initialBindings_builtin (op : Builtin) :
    (initialBindings : Bindings (Value H)).get? op.name =
      some (.native (.builtin op)) := by
  apply Bindings.get?_ofLists_of_mem
  · decide
  · simp
  · rw [List.zip_append (by simp), List.zip_map']
    exact List.mem_append_left _ (List.mem_map_of_mem op.mem_all)

theorem Session.fresh_stocked (limit : Nat) (sink : Sink) (recording : Bool) :
    (fresh limit sink recording : Session H).forest.Stocked ⟨0⟩ where
  root_lt := Nat.one_pos
  builtins op := initialBindings_builtin op

theorem Value.eq_refs_of_copies {values : List (Value H)} {names : List String}
    (hcopies : List.Forall₂ Value.CopyOf values (names.map (.ref · none))) :
    values = names.map fun name => .ref name none := by
  induction names generalizing values with
  | nil =>
      cases hcopies
      rfl
  | cons name names ih =>
      obtain _ | ⟨hfirst, hrest⟩ := hcopies
      rw [hfirst.eq_ref, ih hrest]
      rfl

/-- A list of distinct names can be taken as parameters. -/
theorem parameterNames_of_copy (form : String) {params : Value H}
    {names : List String} (hdistinct : names.Nodup)
    (hcopy : params.CopyOf (.form (names.map (.ref · none)))) :
    parameterNames form params = .ok names := by
  obtain ⟨values, hlisted, hcopies⟩ := hcopy.items
  refine parameterNames_eq_ok_iff.mpr ⟨values, hlisted, ?_, hdistinct⟩
  rw [Value.eq_refs_of_copies hcopies, List.map_map]
  rfl

section Definition

variable {s : Session H} {form : Value H} {name : String}
  {names : List String} {body : Datum}

/-- The form of a procedure with given parameters. -/
def Datum.lambda (names : List String) (body : Datum) : Datum :=
  .form [.ref "lambda" none, .form (names.map (.ref · none)), body]

/-- The definition of a procedure with given parameters. -/
def Datum.definition (name : String) (names : List String) (body : Datum) :
    Datum :=
  .form [.ref "define" none, .ref name none, .lambda names body]

/-- The evaluation of a procedure's form at the top level. -/
theorem BigStep.procedure (hstocked : s.forest.Stocked s.root)
    (hroom : s.depth + 2 ≤ s.limit) (hdistinct : names.Nodup)
    (hcopy : form.CopyOf (.lambda names body)) :
    ∃ inner, inner.CopyOf body ∧
      BigStep 2 (.evaluate form s.root) s
        (.ok (.closure (.made s.batches 0) names inner s.root))
        { s with batches := s.batches + 1 } := by
  let below := s.atDepth (s.depth + 1)
  have hroomBelow : below.depth < below.limit := hroom
  have hfound : below.forest.lookup s.root "lambda" =
      some (.native (.builtin .lambda)) :=
    Forest.lookup_of_get? (hstocked.builtins .lambda)
  obtain ⟨operands, hcopies, hcalled⟩ := BigStep.namedCall hcopy hroomBelow hfound
  obtain _ | @⟨params, _, _, _, hfirst, _ | @⟨inner, _, _, _, hsecond, ⟨⟩⟩⟩ :=
    hcopies
  have hnamed := parameterNames_of_copy "lambda" hdistinct hfirst
  have hmade : Builtin.lambda.alone [params, inner] s.root below =
      .value (.done (.closure (.made s.batches 0) names inner s.root))
        { below with batches := s.batches + 1 } := by
    simp only [Builtin.alone, Builtin.call, takeParameters, hnamed]
    rfl
  refine ⟨inner, hsecond, ?_⟩
  exact .deeper (by omega) (hcalled (.direct rfl rfl rfl hmade))

/-- After a procedure's definition the root scope has the procedure. -/
theorem BigStep.equips (hstocked : s.forest.Stocked s.root)
    (hroom : s.depth + 3 ≤ s.limit) (hdistinct : names.Nodup)
    (hnew : ∀ op : Builtin, op.name ≠ name)
    (hcopy : form.CopyOf (.definition name names body)) :
    ∃ inner t, inner.CopyOf body ∧
      BigStep 3 (.evaluate form s.root) s (.ok .nil) t ∧
      t.forest.Equipped t.root name
        (.closure (.made s.batches 0) names inner t.root) := by
  let below := s.atDepth (s.depth + 1)
  have hroomBelow : below.depth + 2 ≤ below.limit := hroom
  have hfound : below.forest.lookup s.root "define" =
      some (.native (.builtin .define)) :=
    Forest.lookup_of_get? (hstocked.builtins .define)
  obtain ⟨operands, hcopies, hcalled⟩ :=
    BigStep.namedCall hcopy (Nat.lt_of_add_right_lt hroomBelow) hfound
  obtain _ | ⟨hfirst, _ | ⟨hsecond, ⟨⟩⟩⟩ := hcopies
  obtain rfl := hfirst.eq_ref
  have hstockedBelow : below.forest.Stocked below.root := hstocked
  obtain ⟨inner, hcopied, hmade⟩ :=
    BigStep.procedure hstockedBelow hroomBelow hdistinct hsecond
  have hdefined : BigStep 3 (.evaluate form s.root) s (.ok .nil) _ :=
    .deeper (by omega) (hcalled (.definition hmade))
  refine ⟨inner, _, hcopied, hdefined, ?_⟩
  rw [hdefined.changes.root_eq]
  simp only [Session.atDepth, Session.bind, Session.forest_record]
  exact hstocked.set hnew _

end Definition

/-- A call of a name on natural numbers. -/
def Datum.numberCall (name : String) (numbers : List Nat) : Datum :=
  .form (.ref name none :: numbers.map fun n : Nat => .int (Int64.ofInt n))

section TopLevel

variable {s : Session H} {form : Value H} {name : String} {numbers : List Nat}

/-- Machine integers in a call are the arguments. -/
theorem BigStep.wordOperands {operands : List (Value H)} (scope : ScopeId)
    (hroom : s.depth < s.limit) (hfits : ∀ n ∈ numbers, fitsWord n = true)
    (hcopies : List.Forall₂ Value.CopyOf operands
      (numbers.map fun n : Nat => .int (Int64.ofInt n))) :
    List.Forall₂ (fun operand value =>
      BigStep 1 (.evaluate operand scope) s (.ok value) s) operands
      (numbers.map fun n : Nat => .ofResult true n) := by
  induction numbers generalizing operands with
  | nil =>
      cases hcopies
      exact .nil
  | cons n numbers ih =>
      obtain _ | ⟨hcopied, hrest⟩ := hcopies
      obtain ⟨hfitsFirst, hfitsRest⟩ := List.forall_mem_cons.mp hfits
      rw [hcopied.eq_int, List.map_cons, Value.ofResult_of_fits hfitsFirst]
      exact .cons (.constant hroom rfl) (ih hfitsRest hrest)

/-- A top-level call of a procedure takes one level more than the work on the
procedure's body. -/
theorem BigStep.topLevelCall {id : ObjectId} {params : List String}
    {body : Value H} {peak : Nat} {answer : Answer H}
    (hequipped : s.forest.Equipped s.root name (.closure id params body s.root))
    (hdistinct : params.Nodup) (hfits : ∀ n ∈ numbers, fitsWord n = true)
    (hgiven : numbers ≠ []) (hagree : numbers.length = params.length)
    (hcopy : form.CopyOf (.numberCall name numbers))
    (hroom : s.depth + 2 ≤ s.limit) (hbusy : 1 ≤ peak)
    (hinside : ∀ {u : Session H} {scope : ScopeId},
      u.InCall name id params body scope
        (numbers.map fun n : Nat => .ofResult true n) →
      u.depth = s.depth + 1 → u.limit = s.limit →
      ∃ t, BigStep peak (.value body scope) u answer t) :
    ∃ t, BigStep (peak + 1) (.evaluate form s.root) s answer t := by
  let below := s.atDepth (s.depth + 1)
  have hroomBelow : below.depth < below.limit := hroom
  have hfound : below.forest.lookup s.root name =
      some (.closure id params body s.root) :=
    Forest.lookup_of_get? hequipped.procedure
  obtain ⟨operands, hcopies, hcalled⟩ := BigStep.namedCall hcopy hroomBelow hfound
  have hevaluated := BigStep.wordOperands s.root hroomBelow hfits hcopies
  have hsomeOperand : operands ≠ [] := by
    rintro rfl
    exact hgiven (List.map_eq_nil_iff.mp (List.forall₂_nil_left_iff.mp hcopies))
  let values : List (Value H) := numbers.map fun n : Nat => .ofResult true n
  have hagreeToo : values.length = params.length := by
    rw [List.length_map, hagree]
  obtain ⟨t, hderived⟩ := hinside
    (Session.inCall_openScope hequipped hdistinct _ hagreeToo (s.depth + 1)) rfl
    rfl
  have hinvoked := hcalled (.invocation hevaluated hsomeOperand hagreeToo hderived)
  have hlevels : max 1 (max 1 peak) = peak := by omega
  rw [hlevels] at hinvoked
  exact ⟨_, .deeper (by omega) hinvoked⟩

end TopLevel

end Lisp
