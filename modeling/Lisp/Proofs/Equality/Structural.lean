import Lisp.Proofs.Arithmetic.Order
import Lisp.Value.Equality

/-!
Both equalities by recursion over the values.  A loop that keeps a list of what is
still to be compared comes to the same as comparing heads and then, if they are
equal, the rest: the first thing that is met in this order and is not equal
decides.  Which of two values comes first makes no difference.
-/

namespace Lisp

variable {H ε δ : Type}

/-- What two values that are not both cells come to.  Where the remaining chains
of two lists are compared, a cell and anything else are different. -/
def Value.settle (a b : Value H) (inTail : Bool) : Except Cause Bool :=
  if inTail && (a.isPair || b.isPair) then .ok false else a.equalAtom b

/-- A verdict, or the next one if it is that two values are equal. -/
def followUp (verdict next : Except ε Bool) : Except ε Bool :=
  match verdict with
  | .ok true => next
  | .ok false => .ok false
  | .error cause => .error cause

/-- The first verdict other than that two values are equal; if there is none, they
are. -/
def firstVerdict : List (Except ε Bool) → Except ε Bool
  | [] => .ok true
  | verdict :: rest => followUp verdict (firstVerdict rest)

/-- Equality by recursion.  One cell equals itself; of two cells the heads decide,
and if these are equal the rests.  The flag marks the rests. -/
def Value.equalAt : Value H → Value H → Bool → Except Cause Bool
  | .pair i a d _, .pair j b e _, _ =>
      if i = j then .ok true
      else followUp (a.equalAt b false) (d.equalAt e true)
  | a, b, inTail => a.settle b inTail

/-- What equality meets on its way through two values, heads before rests: what
every two values come to that are not both cells. -/
def Value.verdicts : Value H → Value H → Bool → List (Except Cause Bool)
  | .pair i a d _, .pair j b e _, _ =>
      if i = j then [] else a.verdicts b false ++ d.verdicts e true
  | a, b, inTail => [a.settle b inTail]

/-- Strict equality by recursion. -/
def Value.sameAs : Value H → Value H → Bool
  | .pair i a d _, .pair j b e _ =>
      decide (i = j) || (a.sameAs b && d.sameAs e)
  | a, b => a.sameAtom b

section Verdicts

@[simp] theorem followUp_ok_true (next : Except ε Bool) :
    followUp (.ok true) next = next := rfl

theorem followUp_assoc (first second third : Except ε Bool) :
    followUp (followUp first second) third =
      followUp first (followUp second third) := by
  match first with
  | .ok true => rfl
  | .ok false => rfl
  | .error cause => rfl

@[simp] theorem followUp_self_ok_true (verdict : Except ε Bool) :
    followUp verdict (.ok true) = verdict := by
  match verdict with
  | .ok true => rfl
  | .ok false => rfl
  | .error cause => rfl

theorem mapError_followUp (f : ε → δ) (verdict next : Except ε Bool) :
    (followUp verdict next).mapError f =
      followUp (verdict.mapError f) (next.mapError f) := by
  match verdict with
  | .ok true => rfl
  | .ok false => rfl
  | .error cause => rfl

theorem firstVerdict_append (early late : List (Except ε Bool)) :
    firstVerdict (early ++ late) =
      followUp (firstVerdict early) (firstVerdict late) := by
  induction early with
  | nil => rfl
  | cons verdict early ih =>
      rw [List.cons_append, firstVerdict, firstVerdict, ih, followUp_assoc]

theorem mapError_firstVerdict (f : ε → δ) (verdicts : List (Except ε Bool)) :
    (firstVerdict verdicts).mapError f =
      firstVerdict (verdicts.map (·.mapError f)) := by
  induction verdicts with
  | nil => rfl
  | cons verdict verdicts ih =>
      rw [List.map_cons, firstVerdict, firstVerdict, mapError_followUp, ih]

end Verdicts

section Steps

variable {a b : Value H}

theorem Value.settle_of_atoms (ha : a.isPair = false) (hb : b.isPair = false)
    (inTail : Bool) : a.settle b inTail = a.equalAtom b := by
  rw [settle, ha, hb, Bool.or_self, Bool.and_false]
  rfl

/-- Values that are not both cells escape the patterns for two cells. -/
theorem Value.not_cells (hapart : (a.isPair && b.isPair) = false)
    (i : ObjectId) (c d : Value H) (p : Option Location) (j : ObjectId)
    (e f : Value H) (q : Option Location) (ha : a = .pair i c d p)
    (hb : b = .pair j e f q) : False := by
  subst ha hb
  cases hapart

/-- A loop goes on after two values that are not both cells only if they are
equal. -/
theorem Value.followUp_settle (a b : Value H) (inTail : Bool)
    (next : Except Cause Bool) :
    followUp (a.settle b inTail) next =
      if inTail && (a.isPair || b.isPair) then .ok false
      else followUp (a.equalAtom b) next := by
  unfold settle
  split
  · rfl
  · rfl

theorem equalAll_cons_of_apart (hapart : (a.isPair && b.isPair) = false)
    (inTail : Bool) (todo : List (Value H × Value H × Bool)) :
    equalAll ((a, b, inTail) :: todo) =
      followUp (a.settle b inTail) (equalAll todo) := by
  rw [equalAll.eq_3 _ _ _ _ (Value.not_cells hapart), Value.followUp_settle]
  cases a.equalAtom b with
  | ok equal => cases equal <;> rfl
  | error cause => rfl

theorem Value.equalAt_of_apart (hapart : (a.isPair && b.isPair) = false)
    (inTail : Bool) : a.equalAt b inTail = a.settle b inTail := by
  rw [equalAt]
  exact not_cells hapart

theorem Value.verdicts_of_apart (hapart : (a.isPair && b.isPair) = false)
    (inTail : Bool) : a.verdicts b inTail = [a.settle b inTail] := by
  rw [verdicts]
  exact not_cells hapart

theorem identicalAll_cons_of_apart (hapart : (a.isPair && b.isPair) = false)
    (todo : List (Value H × Value H)) :
    identicalAll ((a, b) :: todo) = (a.sameAtom b && identicalAll todo) := by
  rw [identicalAll]
  exact Value.not_cells hapart

theorem Value.sameAs_of_apart (hapart : (a.isPair && b.isPair) = false) :
    a.sameAs b = a.sameAtom b := by
  rw [sameAs]
  exact not_cells hapart

end Steps

/-- Induction over two values at once: what holds of any two that are not both
cells, and of two cells if it holds of their heads and of their rests. -/
theorem Value.sideBySide {motive : Value H → Value H → Prop}
    (apart : ∀ a b, (a.isPair && b.isPair) = false → motive a b)
    (cells : ∀ i a d p j b e q, motive a b → motive d e →
      motive (.pair i a d p) (.pair j b e q)) (a b : Value H) :
    motive a b := by
  induction a generalizing b with
  | pair i a d p ihcar ihcdr =>
      cases b with
      | pair j b e q => exact cells i a d p j b e q (ihcar b) (ihcdr e)
      | _ => exact apart _ _ rfl
  | _ => exact apart _ _ rfl

/-- The loop comes to what its next comparison does, and goes on only if that found
no difference. -/
theorem equalAll_cons (a b : Value H) (inTail : Bool)
    (todo : List (Value H × Value H × Bool)) :
    equalAll ((a, b, inTail) :: todo) =
      followUp (a.equalAt b inTail) (equalAll todo) := by
  induction a, b using Value.sideBySide generalizing inTail todo with
  | apart a b hapart =>
      rw [equalAll_cons_of_apart hapart, Value.equalAt_of_apart hapart]
  | cells i a d p j b e q ihcar ihcdr =>
      rw [equalAll, Value.equalAt]
      by_cases hsame : i = j
      · simp only [hsame, if_true, followUp_ok_true]
      · rw [if_neg hsame, if_neg hsame, ihcar, ihcdr, followUp_assoc]

/-- The loop computes the recursion. -/
theorem Value.equal_eq_equalAt (a b : Value H) :
    a.equal b = a.equalAt b false := by
  rw [equal, equalAll_cons, equalAll, followUp_self_ok_true]

/-- Strict equality of what is still to be compared is strict equality of each two
values. -/
theorem identicalAll_cons (a b : Value H) (todo : List (Value H × Value H)) :
    identicalAll ((a, b) :: todo) = (a.sameAs b && identicalAll todo) := by
  induction a, b using Value.sideBySide generalizing todo with
  | apart a b hapart =>
      rw [identicalAll_cons_of_apart hapart, Value.sameAs_of_apart hapart]
  | cells i a d p j b e q ihcar ihcdr =>
      rw [identicalAll, Value.sameAs]
      by_cases hsame : i = j
      · simp only [hsame, if_true, decide_true, Bool.true_or, Bool.true_and]
      · rw [if_neg hsame, ihcar, ihcdr]
        simp only [hsame, decide_false, Bool.false_or, Bool.and_assoc]

theorem Value.identical_eq_sameAs (a b : Value H) :
    a.identical b = a.sameAs b := by
  rw [identical, identicalAll_cons]
  simp only [identicalAll, Bool.and_true]

theorem Value.equalAt_eq_firstVerdict (a b : Value H) (inTail : Bool) :
    a.equalAt b inTail = firstVerdict (a.verdicts b inTail) := by
  induction a, b using Value.sideBySide generalizing inTail with
  | apart a b hapart =>
      rw [equalAt_of_apart hapart, verdicts_of_apart hapart, firstVerdict,
        firstVerdict, followUp_self_ok_true]
  | cells i a d p j b e q ihcar ihcdr =>
      rw [equalAt, verdicts]
      by_cases hsame : i = j
      · simp only [hsame, if_true, firstVerdict]
      · rw [if_neg hsame, if_neg hsame, firstVerdict_append, ihcar, ihcdr]

section Symmetry

/-- Two values that are not both cells come to the same either way round, or to
complaints of the same kind. -/
theorem Value.equalAtom_swap (a b : Value H) :
    (b.equalAtom a).mapError Cause.kind =
      (a.equalAtom b).mapError Cause.kind := by
  cases a with
  | bool x =>
      cases b with
      | bool y => exact congrArg Except.ok Bool.beq_comm
      | _ => rfl
  | str x =>
      cases b with
      | str y => exact congrArg Except.ok BEq.comm
      | _ => rfl
  | ref x _ =>
      cases b with
      | ref y _ => exact congrArg Except.ok BEq.comm
      | _ => rfl
  | int | big | float =>
      cases b with
      | int | big | float =>
          exact congrArg Except.ok (Number.order_eq_comm _ _)
      | _ => rfl
  | _ => cases b <;> rfl

theorem Value.settle_swap (a b : Value H) (inTail : Bool) :
    (b.settle a inTail).mapError Cause.kind =
      (a.settle b inTail).mapError Cause.kind := by
  unfold settle
  rw [Bool.or_comm]
  split
  · rfl
  · exact equalAtom_swap a b

/-- Either way round, the same is met in the same order. -/
theorem Value.verdicts_swap (a b : Value H) (inTail : Bool) :
    (b.verdicts a inTail).map (·.mapError Cause.kind) =
      (a.verdicts b inTail).map (·.mapError Cause.kind) := by
  induction a, b using Value.sideBySide generalizing inTail with
  | apart a b hapart =>
      have hapart' : (b.isPair && a.isPair) = false := by
        rw [Bool.and_comm, hapart]
      rw [verdicts_of_apart hapart, verdicts_of_apart hapart']
      simp only [List.map_cons, List.map_nil, settle_swap a b]
  | cells i a d p j b e q ihcar ihcdr =>
      rw [verdicts, verdicts]
      by_cases hsame : i = j
      · simp only [hsame, if_true]
      · simp only [hsame, Ne.symm hsame, if_false, List.map_append, ihcar, ihcdr]

end Symmetry

/-- Equality as programs see it is the short-circuit comparison of heads before
rests: the loop computes the recursion, so that the first difference or complaint
met in this order decides, and the other way round it comes to the same answer or
to a complaint of the same kind. -/
theorem equal_short_circuits (a b : Value H) :
    a.equal b = a.equalAt b false ∧
    a.equal b = firstVerdict (a.verdicts b false) ∧
    (b.equal a).mapError Cause.kind = (a.equal b).mapError Cause.kind := by
  have hverdict : ∀ v w : Value H,
      v.equal w = firstVerdict (v.verdicts w false) := by
    intro v w
    rw [Value.equal_eq_equalAt, Value.equalAt_eq_firstVerdict]
  refine ⟨Value.equal_eq_equalAt a b, hverdict a b, ?_⟩
  rw [hverdict, hverdict, mapError_firstVerdict, mapError_firstVerdict,
    Value.verdicts_swap]

end Lisp
