import Lisp.Proofs.Evaluation.Discipline
import Lisp.Proofs.Places.Irrelevance
import Lisp.Proofs.Reading.Joining

/-!
A program in pieces.  To a session it makes no difference whether it is given a
source at once or in two parts, one after the other: reading the whole gives
the forms of both parts in other places, and places do not influence
evaluation.  A source that cannot be read does nothing to a session.
-/

namespace Lisp

variable {H : Type}

/-- The same form without places. -/
def Datum.bare : Datum → Datum
  | .ref name _ => .ref name none
  | .pair car cdr _ => .pair car.bare cdr.bare none
  | form => form

theorem Datum.bare_moved (move : Location → Location) (form : Datum) :
    (form.moved move).bare = form.bare := by
  induction form with
  | pair car cdr place ihCar ihCdr => simp only [moved, bare, ihCar, ihCdr]
  | _ => rfl

theorem Datum.map_bare_moved (move : Location → Location)
    (forms : List Datum) :
    (forms.map (Datum.moved move)).map Datum.bare = forms.map Datum.bare := by
  simp only [List.map_map, Function.comp_def, Datum.bare_moved]

/-- Taking all places away leaves the bare form. -/
theorem Datum.relocated_forgetting :
    Datum.relocated .forgetting = Datum.bare := by
  funext form
  induction form with
  | pair car cdr place ihCar ihCdr =>
      simp only [relocated, bare, ihCar, ihCdr]
      rfl
  | _ => rfl

section Sources

variable (steps : Nat) (scope : ScopeId)

/-- Without their places, forms come to the same. -/
theorem Blind.evaluateForms (forms : List Datum) :
    Blind Value.bare (Lisp.evaluateForms steps scope forms : Eval Empty _)
      (Lisp.evaluateForms steps scope (forms.map Datum.bare)) := by
  rw [blind_iff_equivariant, ← Value.relocated_forgetting,
    ← Datum.relocated_forgetting]
  exact .evaluateForms .forgetting steps scope forms

/-- The value of the last form counts, so forms can be evaluated in two goes
unless the second is empty. -/
theorem evaluateForms_append [Host H] (forms : List Datum) {more : List Datum}
    (hgoesOn : more ≠ []) :
    (evaluateForms steps scope (forms ++ more) : Eval H _) =
      evaluateForms steps scope forms >>= fun _ =>
        evaluateForms steps scope more := by
  unfold evaluateForms
  rw [List.foldlM_append]
  cases more with
  | nil => exact absurd rfl hgoesOn
  | cons form more => rfl

/-- The second of two sources is evaluated in the scope of the first. -/
theorem evaluateSource_bind {first second firstFile secondFile : String}
    {forms more : List Datum} (hreadsFirst : read first firstFile = .ok forms)
    (hreadsSecond : read second secondFile = .ok more) (s : Session Empty) :
    (evaluateSource steps first firstFile >>= fun _ =>
        evaluateSource steps second secondFile) s =
      (evaluateForms steps s.root forms >>= fun _ =>
        evaluateForms steps s.root more) s := by
  rw [Eval.bind_apply, Eval.bind_apply, evaluateSource_of_read steps hreadsFirst]
  cases hends : evaluateForms steps s.root forms s with
  | value value mid =>
      have hsettled : (Request.source first firstFile).session? steps s =
          some mid := by
        rw [Request.session?, evaluateSource_of_read steps hreadsFirst, hends]
        rfl
      have hsameRoot := (Request.changes hsettled).root_eq
      show evaluateSource steps second secondFile mid = _
      rw [evaluateSource_of_read steps hreadsSecond, hsameRoot]
  | fault fault mid => rfl
  | unfinished => rfl

end Sources

/-- Outcomes that are alike but for places: both computations ended, with like
answers, the same output, and sessions that differ only in places; or neither
did. -/
inductive Outcome.Alike : Outcome H (Value H) → Outcome H (Value H) → Prop where
  | ended {answer reply : Answer H} {t v : Session H}
      (hanswers : Lisp.Alike answer reply) (houtput : v.output = t.output)
      (hsessions : v.bare = t.bare) :
      Outcome.Alike (.ofAnswer answer t) (.ofAnswer reply v)
  | unfinished : Outcome.Alike .unfinished .unfinished

theorem Outcome.alike_of_ended (answer : Answer H) (t : Session H)
    {other : Outcome H (Value H)}
    (hsame : other.bare Value.bare = (ofAnswer answer t).bare Value.bare) :
    Outcome.Alike (ofAnswer answer t) other := by
  obtain ⟨reply, v, rfl, hanswers, hsessions⟩ := Outcome.exists_alike hsame
  have houtput : v.bare.output = t.bare.output :=
    congrArg Session.output hsessions
  exact .ended hanswers houtput hsessions

/-- Outcomes with the same bare copy are alike. -/
theorem Outcome.alike_of_bare {outcome other : Outcome H (Value H)}
    (hsame : outcome.bare Value.bare = other.bare Value.bare) :
    outcome.Alike other := by
  cases outcome with
  | value result t => exact alike_of_ended (.ok result) t hsame.symm
  | fault trouble t => exact alike_of_ended (.error trouble) t hsame.symm
  | unfinished =>
      cases other with
      | unfinished => exact .unfinished
      | _ => cases hsame

/-- A program may be given in pieces.  Two sources that can be read, the second
with a form in it, are evaluated one after the other as they are when joined by
a newline: with the same value but for places, or a fault of the same kind and
message, with the same output, and leaving sessions that differ only in places.
A source that cannot be read leaves a session just as it was. -/
theorem evaluateSource_joined (steps : Nat) (s : Session Empty) :
    (∀ first second firstFile secondFile file forms more,
      read first firstFile = .ok forms → read second secondFile = .ok more →
      more ≠ [] →
      Outcome.Alike (evaluateSource steps (first ++ "\n" ++ second) file s)
        ((evaluateSource steps first firstFile >>= fun _ =>
          evaluateSource steps second secondFile) s)) ∧
    ∀ text file fault, read text file = .error fault →
      evaluateSource steps text file s = .fault fault s := by
  constructor
  · intro first second firstFile secondFile file forms more hreadsFirst
      hreadsSecond hgoesOn
    have hwhole := read_joined hreadsFirst hreadsSecond file
    rw [evaluateSource_of_read steps hwhole,
      evaluateSource_bind steps hreadsFirst hreadsSecond,
      ← evaluateForms_append steps s.root forms hgoesOn]
    apply Outcome.alike_of_bare
    rw [← Blind.evaluateForms, ← Blind.evaluateForms, List.map_append,
      List.map_append, Datum.map_bare_moved, Datum.map_bare_moved]
  · intro text file fault hfails
    exact evaluateSource_of_refused steps hfails s

/-- A session in which nothing has been evaluated yet. -/
def sampleSession : Session Empty := .fresh 8 {} false

/-- A definition, with a comment behind it that ends where the sources are
joined, and a use of the name; and a text that is no source. -/
theorem evaluateSource_joined_after_comment :
    (∃ forms more, read "(define x 5) ; five" "one" = .ok forms ∧
      read "x" "two" = .ok more ∧ more ≠ [] ∧
      Outcome.Alike
        (evaluateSource 9 ("(define x 5) ; five" ++ "\n" ++ "x") "whole"
          sampleSession)
        ((evaluateSource 9 "(define x 5) ; five" "one" >>= fun _ =>
          evaluateSource 9 "x" "two") sampleSession)) ∧
    ∃ fault, read ")" "three" = .error fault ∧
      evaluateSource 9 ")" "three" sampleSession =
        .fault fault sampleSession := by
  have hreadsFirst : read "(define x 5) ; five" "one" = .ok
      [.pair (.ref "define" (some ⟨"one", 1, 2⟩))
        (.pair (.ref "x" (some ⟨"one", 1, 9⟩)) (.pair (.int 5) .nil none) none)
        (some ⟨"one", 1, 1⟩)] := by cbv
  have hreadsSecond : read "x" "two" = .ok [.ref "x" (some ⟨"two", 1, 1⟩)] := by
    cbv
  have hfails : read ")" "three" = .error
      { cause := .strayClose, place := some ⟨"three", 1, 1⟩ } := by cbv
  obtain ⟨hjoined, hrefused⟩ := evaluateSource_joined 9 sampleSession
  have hgoesOn := List.cons_ne_nil (Datum.ref "x" (some ⟨"two", 1, 1⟩)) []
  refine ⟨⟨_, _, hreadsFirst, hreadsSecond, hgoesOn, ?_⟩, _, hfails, ?_⟩
  · exact hjoined _ _ _ _ "whole" _ _ hreadsFirst hreadsSecond hgoesOn
  · exact hrefused _ _ _ hfails

end Lisp
