import Lisp.Proofs.Evaluation.Adequacy
import Lisp.Proofs.Places.Equivariance
import Lisp.Proofs.Places.Erasure
import Mathlib

/-!
Places never influence evaluation.  Evaluating bare forms in a bare session
gives, step for step, the bare outcome of the evaluation with places; so two
evaluations that differ in nothing but places end alike or not at all.
-/

namespace Lisp

variable {H α : Type}

/-- A fault blamed on no place. -/
def Fault.bare (fault : Fault) : Fault :=
  { fault with place := none }

/-- An outcome without places; `clean` takes them out of the result. -/
def Outcome.bare (clean : α → α) : Outcome H α → Outcome H α
  | .value result s => .value (clean result) s.bare
  | .fault trouble s => .fault trouble.bare s.bare
  | .unfinished => .unfinished

theorem Outcome.relocated_forgetting (clean : α → α) (outcome : Outcome H α) :
    outcome.relocated .forgetting clean = outcome.bare clean := by
  cases outcome with
  | value result s => rw [relocated, bare, Session.relocated_forgetting]
  | fault trouble s =>
      rw [relocated, bare, Session.relocated_forgetting]
      rfl
  | unfinished => rfl

/-- From a bare session `y` computes what `x` computes from the session
itself, but for places. -/
def Blind (clean : α → α) (x y : Eval H α) : Prop :=
  ∀ s, y s.bare = (x s).bare clean

/-- To be blind to places is to go along with the relocation that takes them
away. -/
theorem blind_iff_equivariant {clean : α → α} {x y : Eval H α} :
    Blind clean x y ↔ Equivariant .forgetting clean x y := by
  simp only [Blind, Equivariant, Session.relocated_forgetting,
    Outcome.relocated_forgetting]

/-- An evaluator that is blind to places. -/
def BlindEvaluator (evaluator : Evaluator H) : Prop :=
  ∀ form scope, Blind Value.bare (evaluator form scope)
    (evaluator form.bare scope)

theorem blindEvaluator_iff_equivariant {evaluator : Evaluator H} :
    BlindEvaluator evaluator ↔ EquivariantEvaluator .forgetting evaluator := by
  simp only [BlindEvaluator, EquivariantEvaluator, blind_iff_equivariant,
    Value.relocated_forgetting]

/-- Going one level deeper keeps an evaluator blind. -/
theorem BlindEvaluator.nested {evaluator : Evaluator Empty}
    (hblind : BlindEvaluator evaluator) : BlindEvaluator (nested evaluator) := by
  rw [blindEvaluator_iff_equivariant] at hblind ⊢
  exact hblind.nested

/-- Evaluation is blind to places, whatever the number of steps. -/
theorem run_blind (steps : Nat) :
    BlindEvaluator (run steps : Evaluator Empty) :=
  blindEvaluator_iff_equivariant.mpr (run_equivariant .forgetting steps)

/-- Two answers that are alike but for places: values with the same bare copy,
or faults of one kind with one message. -/
def Alike : Answer H → Answer H → Prop
  | .ok value, .ok other => value.bare = other.bare
  | .error fault, .error other =>
      fault.kind = other.kind ∧ fault.message = other.message
  | _, _ => False

/-- An outcome with the same bare copy as an answer is an answer like it. -/
theorem Outcome.exists_alike {answer : Answer H} {t : Session H}
    {outcome : Outcome H (Value H)}
    (hsame : outcome.bare Value.bare = (ofAnswer answer t).bare Value.bare) :
    ∃ other u, outcome = ofAnswer other u ∧ Alike answer other ∧
      u.bare = t.bare := by
  cases outcome with
  | value result u =>
      cases answer with
      | ok expected =>
          simp only [bare, ofAnswer, Outcome.value.injEq] at hsame
          exact ⟨.ok result, u, rfl, hsame.1.symm, hsame.2⟩
      | error trouble => cases hsame
  | fault trouble u =>
      cases answer with
      | ok expected => cases hsame
      | error expected =>
          simp only [bare, ofAnswer, Outcome.fault.injEq, Fault.bare,
            Fault.mk.injEq, and_true] at hsame
          have hcause : expected.cause = trouble.cause := hsame.1.symm
          refine ⟨.error trouble, u, rfl, ⟨?_, ?_⟩, hsame.2⟩
          · rw [Fault.kind, hcause, Fault.kind]
          · rw [Fault.message, hcause, Fault.message]
  | unfinished => cases answer <;> cases hsame

/-- Places never influence evaluation.  Take two forms and two sessions that
differ only in the places inside their values: if one evaluation ends, so does
the other, with like answers, the same output, and sessions that again differ
only in places. -/
theorem evaluates_regardless_of_places (form other : Value Empty)
    (scope : ScopeId) (s u : Session Empty)
    (hsameForm : form.bare = other.bare) (hsameSession : s.bare = u.bare)
    (answer : Answer Empty) (t : Session Empty)
    (hends : Evaluates form scope s answer t) :
    ∃ reply v, Evaluates other scope u reply v ∧ Alike answer reply ∧
      v.output = t.output ∧ v.bare = t.bare := by
  obtain ⟨steps, hends⟩ := hends
  have hhere := (run_blind steps).nested form scope s
  have hthere := (run_blind steps).nested other scope u
  rw [← hsameForm, ← hsameSession, hhere] at hthere
  have hsame : (evaluate steps other scope u).bare Value.bare =
      (Outcome.ofAnswer answer t).bare Value.bare := by
    rw [← hends]
    exact hthere.symm
  obtain ⟨reply, v, hreached, halike, hrest⟩ := Outcome.exists_alike hsame
  have houtput : v.bare.output = t.bare.output := congrArg Session.output hrest
  exact ⟨reply, v, ⟨steps, hreached⟩, halike, houtput, hrest⟩

/-- `(cons y (quote x))`, with the builtins themselves as heads, everything in
it written at `place`. -/
def samplePairing (place : Option Location) : Value Empty :=
  .pair (.made 0 0) (.native (.builtin .cons))
    (.pair (.made 0 1) (.ref "y" place)
      (.pair (.made 0 2)
        (.pair (.made 0 3) (.native (.builtin .quote))
          (.pair (.made 0 4) (.ref "x" place) .nil none) place) .nil none)
      none) place

/-- A session in which `y` stands for a name written at `place`. -/
def sampleNamed (place : Option Location) : Session Empty :=
  (Session.fresh 8 {} false).bind ⟨0⟩ "y" (.ref "z" place)

theorem samplePairing_regardless :
    (samplePairing none).bare = (samplePairing (some ⟨"page", 2, 3⟩)).bare ∧
    (sampleNamed none).bare = (sampleNamed (some ⟨"page", 1, 1⟩)).bare ∧
    ∃ reply v, Evaluates (samplePairing (some ⟨"page", 2, 3⟩)) ⟨0⟩
        (sampleNamed (some ⟨"page", 1, 1⟩)) reply v ∧
      Alike (.ok (.pair (.made 0 0) (.ref "z" none) (.ref "x" none) none))
        reply ∧
      v.output = "" ∧
      v.bare = { sampleNamed none with batches := 1 }.bare := by
  have hsameSession :
      (sampleNamed none).bare = (sampleNamed (some ⟨"page", 1, 1⟩)).bare := by
    rw [sampleNamed, sampleNamed, Session.bare_bind, Session.bare_bind]
    rfl
  have hends : Evaluates (samplePairing none) ⟨0⟩ (sampleNamed none)
      (.ok (.pair (.made 0 0) (.ref "z" none) (.ref "x" none) none))
      { sampleNamed none with batches := 1 } := ⟨3, by cbv⟩
  have hsameForm : (samplePairing none).bare =
      (samplePairing (some ⟨"page", 2, 3⟩)).bare := rfl
  exact ⟨hsameForm, hsameSession, evaluates_regardless_of_places _ _ _ _ _
    hsameForm hsameSession _ _ hends⟩

end Lisp
