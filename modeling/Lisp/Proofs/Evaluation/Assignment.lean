import Lisp.Proofs.Evaluation.Hosts

/-!
Definitions and assignments.  Either form has its value evaluated and then
writes one slot: `define` the slot of its own scope, `set!` the slot of the
nearest scope that bound the name before the value was evaluated.  What is seen
afterwards from any scope follows from that one slot.
-/

namespace Lisp

variable {H : Type}

namespace Forest

/-- Binding a name leaves every scope where it is. -/
theorem chain_set (forest : Forest H) (owner id : ScopeId) (name : String)
    (value : Value H) :
    (forest.set owner name value).chain id = forest.chain id := by
  unfold chain
  generalize id.index + 1 = bound
  induction bound generalizing id with
  | zero => rfl
  | succ bound ih =>
      rw [chainUpTo, chainUpTo, parent?_set]
      cases forest.parent? id with
      | none => rfl
      | some outer => simp only [ih]

theorem lookup_set_of_ne (forest : Forest H) (owner id : ScopeId)
    {name key : String} (hdiffer : key ≠ name) (value : Value H) :
    (forest.set owner name value).lookup id key = forest.lookup id key := by
  have hsame : ∀ scope, (forest.set owner name value).get? scope key =
      forest.get? scope key := by
    intro scope
    rw [get?_set, if_neg fun hboth => hdiffer hboth.2.1]
  simp only [lookup, chain_set, hsame]

/-- What differs between two forests if one slot was written: the slot, and
what its name stands for where the slot is the nearest one. -/
structure Overwritten (before after : Forest H) (owner : ScopeId)
    (name : String) (value : Value H) : Prop where
  slots : ∀ id key, after.get? id key =
    if id = owner ∧ key = name then some value else before.get? id key
  seen : ∀ id, after.lookup id name =
    if after.owner? id name = some owner then some value
    else before.lookup id name
  others : ∀ id key, key ≠ name → after.lookup id key = before.lookup id key

section Overwritten

variable {forest : Forest H} {owner : ScopeId}
  (hexist : owner.index < forest.scopes.size)
include hexist

theorem get?_set_of_exists (id : ScopeId) (name key : String)
    (value : Value H) :
    (forest.set owner name value).get? id key =
      if id = owner ∧ key = name then some value else forest.get? id key := by
  simp only [get?_set, hexist, and_true]

/-- Where the written slot is the nearest, its value is seen. -/
theorem lookup_set (id : ScopeId) (name : String) (value : Value H) :
    (forest.set owner name value).lookup id name =
      if (forest.set owner name value).owner? id name = some owner then
        some value
      else
        forest.lookup id name := by
  unfold lookup owner?
  rw [chain_set]
  -- Going outwards, either the written slot comes first, or a slot that was
  -- bound before and is as it was.
  induction forest.chain id with
  | nil => rfl
  | cons first rest ih =>
      rw [List.findSome?_cons, List.findSome?_cons, List.find?_cons,
        get?_set_of_exists hexist]
      by_cases hhere : first = owner
      · simp only [hhere, true_and, if_true, Option.isSome_some]
      · simp only [hhere, false_and, if_false]
        cases forest.get? first name with
        | none => exact ih
        | some old =>
            simp only [Option.isSome_some, Option.some.injEq, hhere, if_false]

theorem set_overwritten (name : String) (value : Value H) :
    forest.Overwritten (forest.set owner name value) owner name value where
  slots id key := get?_set_of_exists hexist id name key value
  seen id := lookup_set hexist id name value
  others id _ hdiffer := forest.lookup_set_of_ne owner id hdiffer value

end Overwritten

end Forest

/-- The scope in which a binding form writes: `define` its own, `set!` the
nearest that binds the name. -/
def Builtin.target? (op : Builtin) (s : Session H) (scope : ScopeId)
    (name : String) : Option ScopeId :=
  match op with
  | .define => some scope
  | .assign => s.forest.owner? scope name
  | _ => none

/-- The session in which a binding form writes; a definition is logged
first. -/
def Builtin.noted (op : Builtin) (name : String) (value : Value H)
    (s : Session H) : Session H :=
  match op with
  | .define => s.record (.defined name value)
  | _ => s

section Binding

variable {op : Builtin} {s before t : Session H} {scope owner : ScopeId}
  {name : String} {value : Value H}

theorem Builtin.noted_forest (op : Builtin) (name : String) (value : Value H)
    (s : Session H) : (op.noted name value s).forest = s.forest := by
  cases op with
  | define => exact Session.forest_record s _
  | _ => rfl

theorem Builtin.noted_depth (op : Builtin) (name : String) (value : Value H)
    (s : Session H) : (op.noted name value s).depth = s.depth := by
  cases op with
  | define => exact (Changes.record s _).depth_eq
  | _ => rfl

theorem Forest.isSome_get?_of_owner? {forest : Forest H}
    (hfound : forest.owner? scope name = some owner) :
    (forest.get? owner name).isSome :=
  List.find?_some (p := fun id => (forest.get? id name).isSome) hfound

/-- A binding form writes in a scope that there is. -/
theorem Builtin.has_target (hexist : s.Has scope)
    (hfound : op.target? s scope name = some owner) : s.Has owner := by
  cases op with
  | define =>
      cases hfound
      exact hexist
  | assign =>
      exact Session.has_of_isSome_get? (Forest.isSome_get?_of_owner? hfound)
  | _ => cases hfound

/-- What a binding form does with a name and the form for its value. -/
theorem Builtin.call_binder (hbinder : op = .define ∨ op = .assign)
    (evaluator : Evaluator H) (name : String) (own : Option Location)
    (form : Value H) (scope : ScopeId) (s : Session H) :
    op.call evaluator [.ref name own, form] scope s =
      match op.target? s scope name with
      | none => .fault { cause := .undefinedName name, place := own } s
      | some owner =>
          match evaluator form scope s with
          | .value value t =>
              .value (.done .nil)
                ((op.noted name value t).bind owner name value)
          | .fault fault t => .fault fault t
          | .unfinished => .unfinished := by
  rcases hbinder with rfl | rfl
  · simp only [call, target?, noted, Eval.bind_apply]
    cases evaluator form scope s <;> rfl
  · simp only [call, target?, noted, Eval.bind_apply, Eval.owner?, Eval.read]
    cases s.forest.owner? scope name with
    | none => rfl
    | some owner =>
        simp only [Eval.bind_apply]
        cases evaluator form scope s <;> rfl

end Binding

section Settles

variable [Host H] {op : Builtin} {form head rest e : Value H} {id : ObjectId}
  {place own : Option Location} {env : ScopeId} {name : String}
  {s before t : Session H}

/-- A head that is not a call leaves the session as it is. -/
theorem Settles.eq_of_not_isPair {value : Value H}
    (hsimple : head.isPair = false) (hends : Settles head env s (.ok value) t) :
    t = s := by
  obtain ⟨steps, hends, henough⟩ :=
    (hends.and (Filter.eventually_gt_atTop 0)).exists
  obtain ⟨steps, rfl⟩ := Nat.exists_eq_succ_of_ne_zero henough.ne'
  by_cases hfull : s.limit ≤ s.depth
  · rw [evaluate_tooDeep _ hfull] at hends
    cases hends
  · rw [evaluate_deeper (Nat.lt_of_not_le hfull)] at hends
    obtain ⟨inner, hinside, rfl⟩ := Eval.deeper_cases hends
    have hsame : inner = s.atDepth (s.depth + 1) := by
      cases head with
      | pair => cases hsimple
      | ref key own =>
          rw [Nat.succ_eq_add_one, run_ref] at hinside
          split at hinside
          · cases hinside
            rfl
          · cases hinside
      | _ =>
          rw [Nat.succ_eq_add_one, run_literal _ _ _ rfl] at hinside
          cases hinside
          rfl
    rw [hsame]
    rfl

/-- A call of a special form settles as its operator says, one level up. -/
theorem Settles.special {operands : List (Value H)} {answer : Answer H}
    (hshape : form = .pair id head rest place)
    (hproper : rest.items? = some operands)
    (hcheck : op.arity.check operands.length = .ok ())
    (hraw : op.evaluatesOperands = false)
    (hresolved : Settles head env (s.atDepth (s.depth + 1))
      (.ok (.native (.builtin op))) before)
    (hcalled : ∀ᶠ steps in Filter.atTop,
      conclude steps form.place (op.call (evaluate steps) operands env) before =
        .ofAnswer answer t) :
    Settles form env s answer (t.atDepth (t.depth - 1)) := by
  apply eventually_of_succ
  filter_upwards [hresolved, hcalled] with steps hresolved hcalled
  have hroom : s.depth < s.limit := by
    by_contra hfull
    have hdeeper : s.limit ≤ s.depth + 1 := by omega
    rw [evaluate_tooDeep steps (s := s.atDepth (s.depth + 1)) hdeeper] at hresolved
    cases hresolved
  rw [evaluate_deeper hroom]
  apply Eval.deeper_of_answer
  rw [run_call steps env _ hshape hproper, conclude_bind_of_value hresolved,
    applyTo_special (evaluate steps) env hcheck hraw]
  exact hcalled

variable (hbinder : op = .define ∨ op = .assign)
  (hshape : form = .pair id head rest place)
  (hoperands : rest.items? = some [.ref name own, e])
  (hresolved : Settles head env (s.atDepth (s.depth + 1))
    (.ok (.native (.builtin op))) before)
include hbinder hshape hoperands hresolved

/-- A binding form settles as the builtin says, one level up. -/
theorem Settles.of_binder {answer : Answer H}
    (hcalled : ∀ᶠ steps in Filter.atTop,
      conclude steps form.place
          (op.call (evaluate steps) [.ref name own, e] env) before =
        .ofAnswer answer t) :
    Settles form env s answer (t.atDepth (t.depth - 1)) := by
  have hraw : op.evaluatesOperands = false := by
    rcases hbinder with rfl | rfl <;> rfl
  have hcheck : op.arity.check [Value.ref name own, e].length = .ok () := by
    rcases hbinder with rfl | rfl <;> rfl
  exact .special hshape hoperands hcheck hraw hresolved hcalled

theorem Settles.missing_target (hmissing : op.target? before env name = none) :
    Settles form env s
      (.error { cause := .undefinedName name, place := own.or form.place })
      (before.atDepth (before.depth - 1)) := by
  refine .of_binder hbinder hshape hoperands hresolved (.of_forall fun steps => ?_)
  have hfails := Builtin.call_binder hbinder (evaluate steps) name own e env
    before
  rw [hmissing] at hfails
  exact conclude_of_fault hfails

theorem Settles.value_fails {owner : ScopeId} {fault : Fault}
    (hfound : op.target? before env name = some owner)
    (hfailed : Settles e env before (.error fault) t) :
    Settles form env s (.error (fault.orAt form.place))
      (t.atDepth (t.depth - 1)) := by
  refine .of_binder hbinder hshape hoperands hresolved ?_
  filter_upwards [hfailed] with steps hfailed
  have hfails := Builtin.call_binder hbinder (evaluate steps) name own e env
    before
  rw [hfound, hfailed] at hfails
  exact conclude_of_fault hfails

theorem Settles.value_written {owner : ScopeId} {value : Value H}
    (hfound : op.target? before env name = some owner)
    (hevaluated : Settles e env before (.ok value) t) :
    Settles form env s (.ok .nil)
      (((op.noted name value t).bind owner name value).atDepth
        (t.depth - 1)) := by
  have hdepth : ((op.noted name value t).bind owner name value).depth =
      t.depth :=
    op.noted_depth name value t
  rw [← hdepth]
  refine .of_binder hbinder hshape hoperands hresolved ?_
  filter_upwards [hevaluated] with steps hevaluated
  have hends := Builtin.call_binder hbinder (evaluate steps) name own e env before
  rw [hfound, hevaluated] at hends
  exact conclude_of_value hends

end Settles

/-- What `define` and `set!` write.  The head of the form settles on the
builtin and leaves the session `before`; unless it is a call, nothing has
changed by then.  The scope to write in is found before the value is evaluated:
for `define` it is the scope `env` of the form, for `set!` the nearest scope
from there outwards that binds the name.  If there is none the form fails,
whatever form `e` is written for the value, and the session stays as it was.  If
the value fails, so does the form, and the session is the one the value left.
Otherwise the session is the one the value left with a single slot overwritten,
so that no other name is seen differently from anywhere, and `set!` binds
nothing that was not bound. -/
theorem binding_form_overwrites [Host H] [LawfulHost H] (op : Builtin)
    (hbinder : op = .define ∨ op = .assign) (form head rest e : Value H)
    (id : ObjectId) (place own : Option Location) (name : String)
    (hshape : form = .pair id head rest place)
    (hoperands : rest.items? = some [.ref name own, e]) (env : ScopeId)
    (s before : Session H) (hexist : s.Has env)
    (hresolved : Settles head env (s.atDepth (s.depth + 1))
      (.ok (.native (.builtin op))) before) :
    (head.isPair = false → before.atDepth s.depth = s) ∧
    (op.target? before env name = none →
      Settles form env s
        (.error { cause := .undefinedName name, place := own.or form.place })
        (before.atDepth s.depth)) ∧
    ∀ owner, op.target? before env name = some owner →
      (∀ fault t, Settles e env before (.error fault) t →
        Settles form env s (.error (fault.orAt form.place))
          (t.atDepth s.depth)) ∧
      ∀ value t, Settles e env before (.ok value) t → ∃ u,
        Settles form env s (.ok .nil) u ∧
        u = ((op.noted name value t).bind owner name value).atDepth s.depth ∧
        t.forest.Overwritten u.forest owner name value ∧
        (op = .assign → ∀ scope key, (u.forest.get? scope key).isSome →
          (t.forest.get? scope key).isSome) := by
  have hdepth : before.depth = s.depth + 1 := hresolved.keeps.depth
  have hback : ∀ t, before.Keeps t → t.depth - 1 = s.depth := by
    intro t hkept
    rw [hkept.depth, hdepth]
    exact Nat.add_sub_cancel _ _
  refine ⟨?_, ?_, ?_⟩
  · intro hsimple
    rw [hresolved.eq_of_not_isPair hsimple]
    rfl
  · intro hmissing
    have hends := Settles.missing_target hbinder hshape hoperands hresolved hmissing
    rwa [hback before (.refl before)] at hends
  · intro owner hfound
    constructor
    · intro fault t hfailed
      have hends := Settles.value_fails hbinder hshape hoperands hresolved hfound
        hfailed
      rwa [hback t hfailed.keeps] at hends
    · intro value t hevaluated
      have hends := Settles.value_written hbinder hshape hoperands hresolved hfound
        hevaluated
      rw [hback t hevaluated.keeps] at hends
      have hhere : before.Has owner :=
        op.has_target (hresolved.keeps.scopes env hexist).1 hfound
      have hstill : t.Has owner := (hevaluated.keeps.scopes owner hhere).1
      have hoverwritten : t.forest.Overwritten
          (((op.noted name value t).bind owner name value).atDepth
            s.depth).forest owner name value := by
        unfold Session.atDepth Session.bind
        rw [op.noted_forest name value t]
        exact Forest.set_overwritten hstill name value
      refine ⟨_, hends, rfl, hoverwritten, ?_⟩
      rintro rfl scope key hbound
      rw [hoverwritten.slots] at hbound
      split at hbound
      · next hsame =>
          -- The slot was bound before the value was evaluated.
          rw [hsame.1, hsame.2]
          exact hevaluated.keeps.names owner name hhere
            (Forest.isSome_get?_of_owner? hfound)
      · exact hbound

/-- A root scope in which `n` is 0, and an empty scope inside it. -/
def sampleLodge : Session Empty :=
  ((Session.fresh 8 {} false).bind ⟨0⟩ "n" (.int 0)).openScope
    ⟨.empty, some ⟨0⟩⟩

/-- `(define n 1)`, with the builtin itself as its head. -/
def sampleTurn : Value Empty :=
  .list 2 [.native (.builtin .define), .ref "n" none, .int 1]

/-- `(begin (define n 1) 2)`. -/
def sampleDetour : Value Empty :=
  .list 1 [.native (.builtin .sequence), sampleTurn, .int 2]

theorem sampleDetour_bigStep (s : Session Empty) (scope : ScopeId)
    (hquiet : s.recording = false) (hroom : s.depth + 3 ≤ s.limit) :
    BigStep 3 (.evaluate sampleDetour scope) s (.ok (.int 2))
      (s.bind scope "n" (.int 1)) := by
  have hliteral : ∀ (form : Value Empty) (t : Session Empty),
      form.isLiteral = true → t.depth < t.limit →
      BigStep 1 (.evaluate form scope) t (.ok form) t :=
    fun form t hplain hbelow => .deeper hbelow (.literal hplain)
  let outer := s.atDepth (s.depth + 1)
  let inner := s.atDepth (s.depth + 2)
  have hbelow : outer.depth < outer.limit := Nat.lt_of_succ_lt hroom
  have hsilent : inner.record (.defined "n" (.int 1)) = inner :=
    if_neg (ne_of_eq_of_ne hquiet Bool.false_ne_true)
  have hbound : BigStep 1 (.value sampleTurn scope) inner (.ok .nil)
      (inner.bind scope "n" (.int 1)) := by
    have hderived : BigStep 1 (.value sampleTurn scope) inner (.ok .nil) _ :=
      .application rfl rfl (hliteral _ inner rfl hroom)
        (.definition (hliteral _ inner rfl hroom))
    rwa [hsilent] at hderived
  have hdefined : BigStep 2 (.evaluate sampleTurn scope) outer (.ok .nil)
      (outer.bind scope "n" (.int 1)) :=
    .deeper hbelow hbound
  have hinside : BigStep 2 (.value sampleDetour scope) outer (.ok (.int 2))
      (outer.bind scope "n" (.int 1)) :=
    .application rfl rfl (hliteral _ outer rfl hbelow)
      (.begin (.effect hdefined (.last (.literal rfl))))
  exact .deeper (by omega) hinside

/-- `(set! n (begin (define n 1) 2))`. -/
def sampleRevision : Value Empty :=
  .list 0 [.native (.builtin .assign), .ref "n" none, sampleDetour]

/-- The value binds the name nearer than where it is assigned. -/
theorem sampleRevision_overwrites :
    ∃ u, Settles sampleRevision ⟨1⟩ sampleLodge (.ok .nil) u ∧
      u.forest.get? ⟨0⟩ "n" = some (.int 2) ∧
      u.forest.get? ⟨1⟩ "n" = some (.int 1) := by
  let before := sampleLodge.atDepth 1
  have hresolved : Settles (.native (.builtin .assign)) ⟨1⟩ before
      (.ok (.native (.builtin .assign))) before := by
    apply evaluates_iff_settles.mp
    exact .of_bigStep (.deeper (by decide) (.literal rfl))
  have hevaluated : Settles sampleDetour ⟨1⟩ before (.ok (.int 2))
      (before.bind ⟨1⟩ "n" (.int 1)) := by
    apply evaluates_iff_settles.mp
    exact .of_bigStep (sampleDetour_bigStep before ⟨1⟩ rfl (by decide))
  have hexist : 1 < sampleLodge.scopeCount := by decide
  have hfound : before.forest.owner? ⟨1⟩ "n" = some ⟨0⟩ := by cbv
  obtain ⟨-, -, hwrites⟩ := binding_form_overwrites .assign (.inr rfl)
    sampleRevision (.native (.builtin .assign))
    (.listFrom 0 1 [.ref "n" none, sampleDetour]) sampleDetour (.made 0 0) none
    none "n" rfl rfl ⟨1⟩ sampleLodge before hexist hresolved
  obtain ⟨u, hends, -, hoverwritten, -⟩ :=
    (hwrites ⟨0⟩ hfound).2 (.int 2) _ hevaluated
  refine ⟨u, hends, ?_, ?_⟩
  · rw [hoverwritten.slots]
    exact if_pos ⟨rfl, rfl⟩
  · have hold : 1 < before.forest.scopes.size := hexist
    rw [hoverwritten.slots, if_neg (by decide), Session.bind, Forest.get?_set]
    exact if_pos ⟨rfl, rfl, hold⟩

end Lisp
