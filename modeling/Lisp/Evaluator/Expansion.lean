import Lisp.Scope.Bindings
import Lisp.Value.Basic

/-!
Macro expansion: one simultaneous substitution of arguments for parameters.
It reaches into quoted forms, looks at no argument again, and copies every
cell of the body.  The spine of a list is walked from its first cell to its last
and put together again from the last to the first; only into the heads on it
does expansion descend.
-/

namespace Lisp

variable {H : Type}

/-- A copied cell that waits for its tail. -/
structure HeadCopy (H : Type) where
  id : ObjectId
  head : Value H
  place : Option Location

/-- Put copied cells in front of a tail, the first of them nearest to it. -/
def HeadCopy.rebuild (cells : List (HeadCopy H)) (tail : Value H) : Value H :=
  cells.foldl (fun cdr cell => .pair cell.id cell.head cdr cell.place) tail

section Substitution

variable (params : List String) (arguments : Bindings (Value H))
  (scope : ScopeId)

/-- What stands in the expansion for a leaf of the body: the argument, if the leaf
is the name of a parameter. -/
def Value.resolve : Value H → Value H
  | .ref name place =>
      if name ∈ params then (arguments.get? name).getD (.ref name place)
      else .ref name place
  | leaf => leaf

/-- Copy the rest of a spine, of which the given cells have been copied, newest
first.  The copied cells belong to `scope` and are numbered from `index` on; the
second component is the first number left over. -/
def Value.walk : List (HeadCopy H) → Value H → Nat → Value H × Nat
  | cells, .pair _ car cdr place, index =>
      let copy := Value.walk [] car (index + 1)
      Value.walk (⟨.copied scope index, copy.1, place⟩ :: cells) cdr copy.2
  | cells, leaf, index =>
      (HeadCopy.rebuild cells (leaf.resolve params arguments), index)

/-- A copy of `body` with arguments in place of the parameters, and the first
number its cells leave over. -/
def Value.substituteFrom (body : Value H) (index : Nat) : Value H × Nat :=
  Value.walk params arguments scope [] body index

/-- The expansion of a macro body by the call that opened `scope`. -/
def Value.substitute (body : Value H) : Value H :=
  (body.substituteFrom params arguments scope 0).1

end Substitution

namespace Value

section Substitution

variable {params : List String} {arguments : Bindings (Value H)}
  {scope : ScopeId}

/-- Walking on from some cells puts them in front of what walking from there
gives by itself. -/
theorem walk_eq (cells : List (HeadCopy H)) (body : Value H) (index : Nat) :
    walk params arguments scope cells body index =
      (HeadCopy.rebuild cells
          (body.substituteFrom params arguments scope index).1,
        (body.substituteFrom params arguments scope index).2) := by
  induction body generalizing cells index with
  | pair id car cdr place _ ihCdr =>
      rw [substituteFrom, walk, walk]
      rw [ihCdr, ihCdr [_]]
      rfl
  | _ => rfl

/-- The walk along a spine comes to a recursion over cells. -/
theorem substituteFrom_pair (id : ObjectId) (car cdr : Value H)
    (place : Option Location) (index : Nat) :
    substituteFrom params arguments scope (.pair id car cdr place) index =
      let head := car.substituteFrom params arguments scope (index + 1)
      let tail := cdr.substituteFrom params arguments scope head.2
      (.pair (.copied scope index) head.1 tail.1 place, tail.2) := by
  rw [substituteFrom, walk]
  exact walk_eq [_] cdr _

theorem substituteFrom_ref (name : String) (place : Option Location)
    (index : Nat) :
    substituteFrom params arguments scope (.ref name place) index =
      (resolve params arguments (.ref name place), index) := rfl

end Substitution

end Value

end Lisp
