import Lisp.Proofs.Evaluation.Deed
import Mathlib.Logic.Relation

/-!
What evaluation can do to a session.  Whatever a task comes to, the session it
leaves is reached by logging, numbering objects, displaying, binding names and
opening scopes; nothing else is touched, and the depth is back where it was.
-/

namespace Lisp

variable {H : Type}

/-- One elementary change of a session. -/
inductive Change (s : Session H) : Session H → Prop where
  | logs (entry : LogEntry) : Change s { s with log := s.log.push entry }
  | numbers : Change s { s with batches := s.batches + 1 }
  | displays (line : String) : Change s (s.displayed line)
  | binds (scope : ScopeId) (name : String) (value : Value H) :
      Change s (s.bind scope name value)
  | opens (bindings : Bindings (Value H)) (parent : ScopeId) :
      Change s (s.openScope ⟨bindings, some parent⟩)

/-- Elementary changes one after another. -/
abbrev Changes : Session H → Session H → Prop :=
  Relation.ReflTransGen Change

theorem Change.atDepth {s t : Session H} (hchange : Change s t)
    (depth : Nat) : Change (s.atDepth depth) (t.atDepth depth) := by
  cases hchange with
  | logs entry => exact .logs entry
  | numbers => exact .numbers
  | displays line => exact .displays line
  | binds scope name value => exact .binds scope name value
  | opens bindings parent => exact .opens bindings parent

theorem Changes.atDepth {s t : Session H} (hchanges : Changes s t)
    (depth : Nat) : Changes (s.atDepth depth) (t.atDepth depth) :=
  hchanges.lift (fun s : Session H => s.atDepth depth)
    fun _ _ hchange => hchange.atDepth depth

/-- What no elementary change touches stays as it is. -/
theorem Changes.eq_of_kept {α : Type} (view : Session H → α)
    (hkept : ∀ {s t : Session H}, Change s t → view t = view s)
    {s t : Session H} (hchanges : Changes s t) : view t = view s := by
  induction hchanges with
  | refl => rfl
  | tail _ hchange ih => exact (hkept hchange).trans ih

theorem Changes.depth_eq {s t : Session H} (hchanges : Changes s t) :
    t.depth = s.depth :=
  hchanges.eq_of_kept Session.depth fun hchange => by cases hchange <;> rfl

theorem Changes.root_eq {s t : Session H} (hchanges : Changes s t) :
    t.root = s.root :=
  hchanges.eq_of_kept Session.root fun hchange => by cases hchange <;> rfl

theorem Changes.limit_eq {s t : Session H} (hchanges : Changes s t) :
    t.limit = s.limit :=
  hchanges.eq_of_kept Session.limit fun hchange => by cases hchange <;> rfl

theorem Session.forest_record (s : Session H) (event : Event H) :
    (s.record event).forest = s.forest := by
  unfold record
  split
  · rfl
  · rfl

theorem Changes.record (s : Session H) (event : Event H) :
    Changes s (s.record event) := by
  unfold Session.record
  split
  · exact .single (.logs event.entry)
  · exact .refl

/-- The session that a value or a fault comes with. -/
def Outcome.session? {α : Type} : Outcome H α → Option (Session H)
  | .value _ session | .fault _ session => some session
  | .unfinished => none

theorem Deed.changes {scope : ScopeId} {x : Eval H (Turn H)}
    (hdeed : Deed scope x) {s t : Session H} (hafter : (x s).session? = some t) :
    Changes s t := by
  cases hdeed with
  | answers value =>
      cases hafter
      exact .refl
  | fails fault =>
      cases hafter
      exact .refl
  | makes build =>
      cases hafter
      exact .single .numbers
  | displays line =>
      obtain rfl : s.displayed line = t := by
        rcases display_cases line s with hshown | ⟨reason, hrefused⟩
        · rw [hshown] at hafter
          exact Option.some.inj hafter
        · rw [hrefused] at hafter
          exact Option.some.inj hafter
      exact .single (.displays line)
  | namesMacro name build =>
      cases hafter
      exact ((Changes.record s _).tail .numbers).tail (.binds _ _ _)

/-- Evaluation only ever makes elementary changes, whatever it ends with. -/
theorem BigStep.changes {peak : Nat} {task : Task H} {s t : Session H}
    {answer : Answer H} (hderived : BigStep peak task s answer t) :
    Changes s t := by
  induction hderived with
  | tooDeep => exact .record _ _
  | @deeper _ _ _ s _ t _ _ ih =>
      have hdepth : t.depth - 1 = s.depth := by
        rw [ih.depth_eq]
        exact Nat.add_sub_cancel _ _
      rw [hdepth]
      exact ih.atDepth s.depth
  | literal | bound | unbound | dotted | refused | miscounted | nothing
  | nameless | unassignable => exact .refl
  | headFails _ _ _ ih | operands _ _ _ ih | operandFails _ ih
  | conditionFails _ ih | conditionRefused _ _ ih | begin _ ih | last _ ih
  | effectFails _ ih | definitionFails _ ih | assignmentFails _ _ ih =>
      exact ih
  | application _ _ _ _ ih₁ ih₂ | operand _ _ ih₁ ih₂ | branch _ _ ih₁ ih₂
  | effect _ _ ih₁ ih₂ => exact ih₁.trans ih₂
  | function heager hresult | functionFails heager hresult =>
      have hinert := Builtin.evaluates_eq_false heager
      exact (Builtin.alone_deed _ _ hinert).changes (by rw [hresult]; rfl)
  | direct _ _ hinert hresult | directFails _ _ hinert hresult =>
      exact (Builtin.alone_deed _ _ hinert).changes (by rw [hresult]; rfl)
  | body _ _ ih => exact .head (.opens _ _) ih
  | expansion _ _ ih =>
      exact .head (.opens _ _) ((Changes.record _ _).trans ih)
  | definition _ ih => exact (ih.trans (Changes.record _ _)).tail (.binds _ _ _)
  | assignment _ _ ih => exact ih.tail (.binds _ _ _)

/-- However a task ends, the depth is what it was before. -/
theorem BigStep.depth_eq {peak : Nat} {task : Task H} {s t : Session H}
    {answer : Answer H} (hderived : BigStep peak task s answer t) :
    t.depth = s.depth :=
  hderived.changes.depth_eq

end Lisp
