import Lisp.Proofs.Equality.Structural

/-!
The shortcut for a cell that is compared with itself.  In one store, where one
identity is one cell, both equalities answer as they would with a look inside, as
long as everything inside equals itself: for strict equality all but a NaN, and
for equality as programs see it all but a NaN and the procedures.
-/

namespace Lisp

variable {H : Type}

/-- Whether all cells of a value hold what a store has under their identity, head
and rest.  In values of one store a cell is the same wherever it is met. -/
def Value.StoredIn (store : ObjectId → Value H × Value H) : Value H → Prop
  | .pair id car cdr _ =>
      store id = (car, cdr) ∧ car.StoredIn store ∧ cdr.StoredIn store
  | _ => True

/-- Whether all that cells are made of in the end passes a test. -/
def Value.everyAtom (test : Value H → Bool) : Value H → Bool
  | .pair _ car cdr _ => car.everyAtom test && cdr.everyAtom test
  | v => test v

/-- Whether a value is a double that is not a number. -/
def Value.isNaN : Value H → Bool
  | .float x => x.isNaN
  | _ => false

/-- Whether a value is a closure, a macro or a native procedure. -/
def Value.isProcedure : Value H → Bool
  | .closure _ _ _ _ | .expander _ _ _ | .native _ => true
  | _ => false

/-- Strict equality of each pair of values in turn, with a look inside all
cells. -/
def identicalAllThrough : List (Value H × Value H) → Bool
  | [] => true
  | (.pair _ a d _, .pair _ b e _) :: todo =>
      identicalAllThrough ((a, b) :: (d, e) :: todo)
  | (a, b) :: todo => a.sameAtom b && identicalAllThrough todo
termination_by todo => weigh (fun p => p.1.size) todo
decreasing_by
  all_goals simp only [weigh, Value.size]
  · omega
  · have := a.size_pos
    omega

/-- Strict equality with a look inside all cells. -/
def Value.identicalThrough (a b : Value H) : Bool :=
  identicalAllThrough [(a, b)]

/-- Equality of each pair of values in turn, up to the first difference, with a
look inside all cells. -/
def equalAllThrough : List (Value H × Value H × Bool) → Except Cause Bool
  | [] => .ok true
  | (.pair _ a d _, .pair _ b e _, _) :: todo =>
      equalAllThrough ((a, b, false) :: (d, e, true) :: todo)
  | (a, b, inTail) :: todo =>
      if inTail && (a.isPair || b.isPair) then
        .ok false
      else
        match a.equalAtom b with
        | .ok true => equalAllThrough todo
        | .ok false => .ok false
        | .error cause => .error cause
termination_by todo => weigh (fun p => p.1.size) todo
decreasing_by
  all_goals simp only [weigh, Value.size]
  · omega
  · have := a.size_pos
    omega

/-- Equality as programs see it, with a look inside all cells. -/
def Value.equalThrough (a b : Value H) : Except Cause Bool :=
  equalAllThrough [(a, b, false)]

section Steps

variable {a b : Value H}

theorem identicalAllThrough_cons_of_apart
    (hapart : (a.isPair && b.isPair) = false)
    (todo : List (Value H × Value H)) :
    identicalAllThrough ((a, b) :: todo) =
      (a.sameAtom b && identicalAllThrough todo) := by
  rw [identicalAllThrough]
  exact Value.not_cells hapart

theorem equalAllThrough_cons_of_apart
    (hapart : (a.isPair && b.isPair) = false) (inTail : Bool)
    (todo : List (Value H × Value H × Bool)) :
    equalAllThrough ((a, b, inTail) :: todo) =
      followUp (a.settle b inTail) (equalAllThrough todo) := by
  rw [equalAllThrough.eq_3 _ _ _ _ (Value.not_cells hapart),
    Value.followUp_settle]
  cases a.equalAtom b with
  | ok equal => cases equal <;> rfl
  | error cause => rfl

end Steps

section Reflexivity

theorem Value.everyAtom_of_not_isPair {v : Value H} (hatom : v.isPair = false)
    (test : Value H → Bool) : v.everyAtom test = test v := by
  cases v with
  | pair => cases hatom
  | _ => rfl

/-- Of all values but cells, strict equality tells only a NaN from itself. -/
theorem Value.sameAtom_self {v : Value H} (hatom : v.isPair = false) :
    v.sameAtom v = !v.isNaN := by
  cases v with
  | pair => cases hatom
  | nil => rfl
  | float x => exact Number.beq_float_self x
  | _ => exact beq_self_eq_true _

/-- Whether a value can be compared with itself and is then equal to it. -/
def Value.isComparable (v : Value H) : Bool :=
  !v.isNaN && !v.isProcedure

theorem Value.equalAtom_self {v : Value H} (hatom : v.isPair = false)
    (hv : v.isComparable = true) : v.equalAtom v = .ok true := by
  cases v with
  | pair => cases hatom
  | closure | expander | native => cases hv
  | nil => rfl
  | bool | str | ref => exact congrArg Except.ok (beq_self_eq_true _)
  | int | big =>
      exact congrArg Except.ok (beq_iff_eq.mpr (Number.order_self rfl))
  | float x =>
      have hnumber : x.isNaN = false := by
        simpa [isComparable, isNaN, isProcedure] using hv
      exact congrArg Except.ok (beq_iff_eq.mpr (Number.order_self hnumber))

/-- A value compared with itself holds up the loop only where a NaN is in it. -/
theorem identicalAllThrough_self (v : Value H)
    (todo : List (Value H × Value H)) :
    identicalAllThrough ((v, v) :: todo) =
      (v.everyAtom (!·.isNaN) && identicalAllThrough todo) := by
  induction v generalizing todo with
  | pair id car cdr place ihcar ihcdr =>
      rw [identicalAllThrough, ihcar, ihcdr, Value.everyAtom, Bool.and_assoc]
  | _ =>
      rw [identicalAllThrough_cons_of_apart rfl, Value.sameAtom_self rfl,
        Value.everyAtom_of_not_isPair rfl]

theorem equalAllThrough_self {v : Value H}
    (hv : v.everyAtom Value.isComparable = true) (inTail : Bool)
    (todo : List (Value H × Value H × Bool)) :
    equalAllThrough ((v, v, inTail) :: todo) = equalAllThrough todo := by
  induction v generalizing inTail todo with
  | pair id car cdr place ihcar ihcdr =>
      rw [Value.everyAtom, Bool.and_eq_true] at hv
      rw [equalAllThrough, ihcar hv.1, ihcdr hv.2]
  | _ =>
      rw [Value.everyAtom_of_not_isPair rfl] at hv
      rw [equalAllThrough_cons_of_apart rfl, Value.settle_of_atoms rfl rfl,
        Value.equalAtom_self rfl hv, followUp_ok_true]

end Reflexivity

/-- Two values of one store, the first of which consists of atoms that pass a
test. -/
structure Value.Beside (store : ObjectId → Value H × Value H)
    (test : Value H → Bool) (a b : Value H) : Prop where
  left : a.StoredIn store
  right : b.StoredIn store
  atoms : a.everyAtom test = true

section Beside

variable {store : ObjectId → Value H × Value H} {test : Value H → Bool}
  {i j : ObjectId} {a b d e : Value H} {p q : Option Location}

theorem Value.Beside.heads
    (h : Value.Beside store test (.pair i a d p) (.pair j b e q)) :
    Value.Beside store test a b where
  left := h.left.2.1
  right := h.right.2.1
  atoms := (Bool.and_eq_true_iff.mp h.atoms).1

theorem Value.Beside.rests
    (h : Value.Beside store test (.pair i a d p) (.pair j b e q)) :
    Value.Beside store test d e where
  left := h.left.2.2
  right := h.right.2.2
  atoms := (Bool.and_eq_true_iff.mp h.atoms).2

/-- One identity is one cell. -/
theorem Value.Beside.same_cell
    (h : Value.Beside store test (.pair i a d p) (.pair i b e q)) :
    a = b ∧ d = e :=
  Prod.mk.inj (h.left.1.symm.trans h.right.1)

end Beside

section Shortcut

variable {store : ObjectId → Value H × Value H}

/-- Strict equality does not change when it looks inside a cell that is compared
with itself. -/
theorem identicalAll_cons_eq_through {a b : Value H}
    (h : Value.Beside store (!·.isNaN) a b) {todo : List (Value H × Value H)}
    (htodo : identicalAll todo = identicalAllThrough todo) :
    identicalAll ((a, b) :: todo) = identicalAllThrough ((a, b) :: todo) := by
  induction a, b using Value.sideBySide generalizing todo with
  | apart a b hapart =>
      rw [identicalAll_cons_of_apart hapart,
        identicalAllThrough_cons_of_apart hapart, htodo]
  | cells i a d p j b e q ihcar ihcdr =>
      rw [identicalAll, identicalAllThrough]
      by_cases hsame : i = j
      · subst hsame
        obtain ⟨rfl, rfl⟩ := h.same_cell
        rw [if_pos rfl, identicalAllThrough_self, identicalAllThrough_self,
          h.heads.atoms, h.rests.atoms, htodo, Bool.true_and, Bool.true_and]
      · rw [if_neg hsame]
        exact ihcar h.heads (ihcdr h.rests htodo)

theorem equalAll_cons_eq_through {a b : Value H}
    (h : Value.Beside store Value.isComparable a b) (inTail : Bool)
    {todo : List (Value H × Value H × Bool)}
    (htodo : equalAll todo = equalAllThrough todo) :
    equalAll ((a, b, inTail) :: todo) =
      equalAllThrough ((a, b, inTail) :: todo) := by
  induction a, b using Value.sideBySide generalizing inTail todo with
  | apart a b hapart =>
      rw [equalAll_cons_of_apart hapart, equalAllThrough_cons_of_apart hapart,
        htodo]
  | cells i a d p j b e q ihcar ihcdr =>
      rw [equalAll, equalAllThrough]
      by_cases hsame : i = j
      · subst hsame
        obtain ⟨rfl, rfl⟩ := h.same_cell
        rw [if_pos rfl, equalAllThrough_self h.heads.atoms,
          equalAllThrough_self h.rests.atoms, htodo]
      · rw [if_neg hsame]
        exact ihcar h.heads false (ihcdr h.rests true htodo)

end Shortcut

/-- The shortcut for one cell is sound in every store.  If no NaN is in the first
of two values, strict equality answers as it would with a look inside all cells;
if no procedure is in it either, equality as programs see it has the same outcome
as it would have then. -/
theorem shortcut_sound (store : ObjectId → Value H × Value H) (a b : Value H)
    (ha : a.StoredIn store) (hb : b.StoredIn store) :
    (a.everyAtom (!·.isNaN) = true → a.identical b = a.identicalThrough b) ∧
    (a.everyAtom Value.isComparable = true →
      a.equal b = a.equalThrough b) := by
  constructor
  · intro hatoms
    exact identicalAll_cons_eq_through ⟨ha, hb, hatoms⟩
      (by rw [identicalAll, identicalAllThrough])
  · intro hatoms
    exact equalAll_cons_eq_through ⟨ha, hb, hatoms⟩ false
      (by rw [equalAll, equalAllThrough])

/-- A list of a number and a name, as one cell of the two samples. -/
def sampleShared : Value Empty :=
  .pair (.made 0 0) (.float 1.5)
    (.pair (.made 0 1) (.ref "x" none) .nil none) none

/-- A cell of its own in front of the shared one. -/
def sampleSharer (index : Nat) (head : Value Empty) : Value Empty :=
  .pair (.made 1 index) head sampleShared none

/-- The store of all these cells. -/
def sampleStore : ObjectId → Value Empty × Value Empty
  | .made 0 0 => (.float 1.5, .pair (.made 0 1) (.ref "x" none) .nil none)
  | .made 0 _ => (.ref "x" none, .nil)
  | .made 1 0 => (.int 2, sampleShared)
  | _ => (.big 2, sampleShared)

/-- Two lists with a common rest, and heads that are equal for programs only. -/
theorem sampleSharer_shortcut :
    (sampleSharer 0 (.int 2)).identical (sampleSharer 1 (.big 2)) =
      (sampleSharer 0 (.int 2)).identicalThrough (sampleSharer 1 (.big 2)) ∧
    (sampleSharer 0 (.int 2)).equal (sampleSharer 1 (.big 2)) =
      (sampleSharer 0 (.int 2)).equalThrough (sampleSharer 1 (.big 2)) := by
  have hleft : (sampleSharer 0 (.int 2)).StoredIn sampleStore :=
    ⟨rfl, trivial, rfl, trivial, rfl, trivial, trivial⟩
  have hright : (sampleSharer 1 (.big 2)).StoredIn sampleStore :=
    ⟨rfl, trivial, rfl, trivial, rfl, trivial, trivial⟩
  obtain ⟨hidentical, hequal⟩ := shortcut_sound sampleStore _ _ hleft hright
  exact ⟨hidentical (by decide), hequal (by decide)⟩

end Lisp
