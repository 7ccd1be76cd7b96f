import Lisp.Host.Sample
import Lisp.Proofs.Evaluation.Discipline

/-!
Hosts that can be relied on.  The procedures of a host may have forms evaluated
and may change the session.  If none of them takes away what a session relies
on, then no evaluation does, and the host is called lawful.
-/

namespace Lisp

variable {H α β : Type}

/-- Whether a computation, however it ends, keeps what a session relies on. -/
def Keeping (x : Eval H α) : Prop :=
  ∀ s t, (x s).session? = some t → s.Keeps t

/-- A host whose procedures keep what a session relies on, as long as the
evaluations they ask for do.  They may bind names, open scopes and display, but
not lose a scope or a name, nor meddle with the depth. -/
class LawfulHost (H : Type) [Host H] : Prop where
  call_keeping : ∀ (proc : H) (evaluator : Evaluator H)
    (operands : List (Value H)) (scope : ScopeId),
    (∀ form scope, Keeping (evaluator form scope)) →
      Keeping (Host.call proc evaluator operands scope)

namespace Keeping

theorem of_changes {x : Eval H α}
    (hchanges : ∀ s t, (x s).session? = some t → Changes s t) : Keeping x :=
  fun s t hafter => (hchanges s t hafter).keeps

theorem pure (a : α) : Keeping (Pure.pure a : Eval H α) := by
  rintro s t ⟨⟩
  exact .refl s

theorem fail (fault : Fault) : Keeping (Eval.fail fault : Eval H α) := by
  rintro s t ⟨⟩
  exact .refl s

theorem ofExcept (result : Except Cause α) :
    Keeping (Eval.ofExcept result : Eval H α) := by
  cases result with
  | ok value => exact pure value
  | error cause => exact fail { cause }

theorem bind {x : Eval H α} {f : α → Eval H β} (hfirst : Keeping x)
    (hlater : ∀ a, Keeping (f a)) : Keeping (x >>= f) := by
  intro s t hafter
  rw [Eval.bind_apply] at hafter
  cases hends : x s with
  | value a mid =>
      rw [hends] at hafter
      have hearly := hfirst s mid (by rw [hends]; rfl)
      exact hearly.trans (hlater a mid t hafter)
  | fault trouble mid =>
      rw [hends] at hafter
      exact hfirst s t (by rw [hends]; exact hafter)
  | unfinished =>
      rw [hends] at hafter
      cases hafter

theorem located {x : Eval H α} (hinside : Keeping x)
    (place : Option Location) : Keeping (Eval.located place x) := by
  intro s t hafter
  apply hinside s t
  unfold Eval.located at hafter
  cases hends : x s with
  | value a mid =>
      rw [hends] at hafter
      exact hafter
  | fault trouble mid =>
      rw [hends] at hafter
      exact hafter
  | unfinished =>
      rw [hends] at hafter
      cases hafter

/-- Going one level deeper and coming back up loses nothing. -/
theorem deeper {x : Eval H α} (hinside : Keeping x) :
    Keeping (Eval.deeper x) := by
  have hback : ∀ s mid : Session H, (s.atDepth (s.depth + 1)).Keeps mid →
      s.Keeps (mid.atDepth (mid.depth - 1)) := by
    intro s mid hkept
    have hdepth : mid.depth - 1 = s.depth := by
      rw [hkept.depth]
      exact Nat.add_sub_cancel _ _
    exact ⟨hdepth, hkept.scopes, hkept.names, hkept.output⟩
  intro s t hafter
  unfold Eval.deeper at hafter
  split at hafter
  · next a mid hends =>
      cases hafter
      exact hback s mid (hinside _ mid (by rw [Session.atDepth, hends]; rfl))
  · next trouble mid hends =>
      cases hafter
      exact hback s mid (hinside _ mid (by rw [Session.atDepth, hends]; rfl))
  · cases hafter

theorem note (event : Event H) : Keeping (Eval.note event) := by
  apply of_changes
  rintro s t ⟨⟩
  exact .record s event

theorem assign (scope : ScopeId) (name : String) (value : Value H) :
    Keeping (Eval.assign scope name value) := by
  apply of_changes
  rintro s t ⟨⟩
  exact .single (.binds scope name value)

theorem enterScope (parent : ScopeId) (bindings : Bindings (Value H)) :
    Keeping (Eval.enterScope parent bindings) := by
  apply of_changes
  rintro s t ⟨⟩
  exact .single (.opens bindings parent)

theorem freshBatch : Keeping (Eval.freshBatch : Eval H Nat) := by
  apply of_changes
  rintro s t ⟨⟩
  exact .single .numbers

theorem read (f : Session H → α) : Keeping (Eval.read f) := by
  rintro s t ⟨⟩
  exact .refl s

end Keeping

section Evaluator

variable {evaluator : Evaluator H}

theorem evaluateAll_keeping
    (hkeeping : ∀ form scope, Keeping (evaluator form scope))
    (forms : List (Value H)) (scope : ScopeId) :
    Keeping (evaluateAll evaluator forms scope) := by
  unfold evaluateAll
  induction forms with
  | nil => exact .pure []
  | cons form forms ih =>
      rw [List.mapM_cons]
      exact .bind (hkeeping form scope) fun value =>
        .bind ih fun values => .pure (value :: values)

theorem runSequence_keeping
    (hkeeping : ∀ form scope, Keeping (evaluator form scope))
    (scope : ScopeId) (forms : List (Value H)) :
    Keeping (runSequence evaluator scope forms) := by
  induction forms with
  | nil => exact .pure _
  | cons form forms ih =>
      cases forms with
      | nil => exact .pure _
      | cons next rest => exact .bind (hkeeping form scope) fun _ => ih

theorem define_keeping
    (hkeeping : ∀ form scope, Keeping (evaluator form scope))
    (operands : List (Value H)) (scope : ScopeId) :
    Keeping (Builtin.define.call evaluator operands scope) := by
  simp only [Builtin.call]
  split
  · next name _ form =>
      exact .bind (hkeeping form scope) fun value => .bind (.note _) fun _ =>
        .bind (.assign scope name value) fun _ => .pure _
  · exact .fail _
  · exact .fail _

theorem assign_keeping
    (hkeeping : ∀ form scope, Keeping (evaluator form scope))
    (operands : List (Value H)) (scope : ScopeId) :
    Keeping (Builtin.assign.call evaluator operands scope) := by
  simp only [Builtin.call]
  split
  · next name place form =>
      refine .bind (.read _) fun found => ?_
      cases found with
      | none => exact .fail _
      | some owner =>
          exact .bind (hkeeping form scope) fun value =>
            .bind (.assign owner name value) fun _ => .pure _
  · exact .fail _
  · exact .fail _

theorem conditional_keeping
    (hkeeping : ∀ form scope, Keeping (evaluator form scope))
    (operands : List (Value H)) (scope : ScopeId) :
    Keeping (Builtin.conditional.call evaluator operands scope) := by
  simp only [Builtin.call]
  split
  · next condition yes no =>
      refine .bind (hkeeping condition scope) fun value => ?_
      split
      · exact .pure _
      · exact .pure _
      · exact .fail _
  · exact .fail _

theorem Builtin.call_keeping
    (hkeeping : ∀ form scope, Keeping (evaluator form scope)) (op : Builtin)
    (operands : List (Value H)) (scope : ScopeId) :
    Keeping (op.call evaluator operands scope) := by
  cases hinert : op.evaluates with
  | false =>
      rw [Builtin.call_eq_alone evaluator operands scope hinert]
      exact .of_changes fun s t hafter =>
        (Builtin.alone_deed operands scope hinert).changes hafter
  | true =>
      cases op with
      | define => exact define_keeping hkeeping operands scope
      | assign => exact assign_keeping hkeeping operands scope
      | sequence => exact runSequence_keeping hkeeping scope operands
      | conditional => exact conditional_keeping hkeeping operands scope
      | _ => cases hinert

theorem nested_keeping
    (hkeeping : ∀ form scope, Keeping (evaluator form scope))
    (form : Value H) (scope : ScopeId) :
    Keeping (nested evaluator form scope) := by
  intro s t hafter
  unfold nested at hafter
  split at hafter
  · cases hafter
    exact (Changes.record s _).keeps
  · exact (hkeeping form scope).deeper s t hafter

variable [Host H] [LawfulHost H]

theorem applyTo_keeping
    (hkeeping : ∀ form scope, Keeping (evaluator form scope))
    (operator : Value H) (operands : List (Value H)) (scope : ScopeId) :
    Keeping (applyTo evaluator operator operands scope) := by
  have hnative : ∀ (proc : Native H) (operands : List (Value H)),
      Keeping (proc.call evaluator operands scope) := by
    intro proc operands
    cases proc with
    | builtin op => exact op.call_keeping hkeeping operands scope
    | host proc =>
        exact LawfulHost.call_keeping proc.action evaluator operands scope
          hkeeping
  have harguments := evaluateAll_keeping hkeeping operands scope
  cases operator with
  | native proc =>
      refine .bind (.ofExcept _) fun _ => ?_
      split
      · exact .bind harguments (hnative proc)
      · exact hnative proc operands
  | closure id params body captured =>
      refine .bind harguments fun values => ?_
      split
      · exact .bind (.enterScope _ _) fun _ => .pure _
      · exact .fail _
  | expander id params body =>
      simp only [applyTo]
      split
      · exact .bind harguments fun values =>
          .bind (.enterScope _ _) fun _ => .bind (.note _) fun _ => .pure _
      · exact .fail _
  | _ => exact .fail _

theorem turn_keeping
    (hkeeping : ∀ form scope, Keeping (evaluator form scope))
    (form : Value H) (scope : ScopeId) :
    Keeping (turn evaluator form scope) := by
  cases form with
  | ref name place =>
      refine .bind (.read _) fun found => ?_
      cases found with
      | none => exact .fail _
      | some value => exact .pure _
  | pair id head rest place =>
      simp only [turn]
      split
      · exact .fail _
      · next operands _ =>
          exact .located (.bind (hkeeping head scope) fun operator =>
            applyTo_keeping hkeeping operator operands scope) _
  | _ => exact .pure _

theorem run_keeping (steps : Nat) (form : Value H) (scope : ScopeId) :
    Keeping (run steps form scope) := by
  induction steps generalizing form scope with
  | zero =>
      intro s t hafter
      cases hafter
  | succ steps ih =>
      have hfinish : ∀ next : Turn H, Keeping (next.finish steps) := by
        intro next
        cases next with
        | done value => exact .pure value
        | tail form scope => exact ih form scope
      intro s t hafter
      rw [run_succ] at hafter
      exact Keeping.bind (turn_keeping (nested_keeping ih) form scope) hfinish
        s t hafter

/-- Whatever is evaluated and however that ends, with a lawful host nothing
that a session relies on is lost. -/
theorem evaluate_keeping (steps : Nat) (form : Value H) (scope : ScopeId) :
    Keeping (evaluate steps form scope) :=
  nested_keeping (run_keeping steps) form scope

end Evaluator

/-- The evaluation of a form ends with an answer and leaves a session behind,
for every number of steps from some number on. -/
def Settles [Host H] (form : Value H) (scope : ScopeId) (s : Session H)
    (answer : Answer H) (t : Session H) : Prop :=
  ∀ᶠ steps in Filter.atTop, evaluate steps form scope s = .ofAnswer answer t

theorem Settles.keeps [Host H] [LawfulHost H] {form : Value H}
    {scope : ScopeId} {s t : Session H} {answer : Answer H}
    (hends : Settles form scope s answer t) : s.Keeps t := by
  obtain ⟨steps, hends⟩ := hends.exists
  apply evaluate_keeping steps form scope s t
  rw [hends]
  cases answer <;> rfl

/-- Without a host, an answer once reached is an answer for good. -/
theorem evaluates_iff_settles {form : Value Empty} {s t : Session Empty}
    {answer : Answer Empty} :
    Evaluates form scope s answer t ↔ Settles form scope s answer t := by
  constructor
  · intro hends
    obtain ⟨peak, hderived⟩ := hends.bigStep
    exact hderived.eventually_perform
  · exact fun hends => hends.exists

instance : LawfulHost Empty where
  call_keeping proc := nomatch proc

theorem listTurn_keeping (items : List (Value H)) : Keeping (listTurn items) :=
  .bind .freshBatch fun _ => .pure _

instance : LawfulHost SampleProc where
  call_keeping := by
    intro proc evaluator operands scope hkeeping
    cases proc with
    | answer => exact .pure _
    | count => exact .pure _
    | args => exact listTurn_keeping operands
    | fail place => exact .fail _
    | reversed =>
        exact .bind (evaluateAll_keeping hkeeping operands scope) fun values =>
          listTurn_keeping values.reverse
    | double =>
        cases operands with
        | nil => exact .fail _
        | cons first rest => exact .bind (.ofExcept _) fun _ => .pure _
    | tail =>
        cases operands with
        | nil => exact .fail _
        | cons first rest => exact .pure _
    | tailRoot =>
        cases operands with
        | nil => exact .fail _
        | cons first rest =>
            exact .bind (.read Session.root) fun root =>
              .pure (Turn.tail first root)

end Lisp
