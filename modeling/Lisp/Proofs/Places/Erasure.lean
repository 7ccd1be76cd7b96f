import Lisp.Proofs.Places.Relocation

/-!
Values without places.  A bare value keeps everything but where its names and
cells were written; identities stay, so what was shared is shared as before.  It
is the copy that the relocation which takes all places away makes of the value.
-/

namespace Lisp

variable {H : Type}

/-- The same value without places. -/
def Value.bare : Value H → Value H
  | .ref name _ => .ref name none
  | .pair id car cdr _ => .pair id car.bare cdr.bare none
  | .closure id params body scope => .closure id params body.bare scope
  | .expander id params body => .expander id params body.bare
  | v => v

/-- Taking all places away leaves the bare value. -/
theorem Value.relocated_forgetting :
    (Value.relocated .forgetting : Value H → Value H) = Value.bare := by
  funext v
  induction v with
  | pair id car cdr place ihCar ihCdr =>
      simp only [relocated, bare, ihCar, ihCdr]
      rfl
  | closure id params body scope ih => simp only [relocated, bare, ih]
  | expander id params body ih => simp only [relocated, bare, ih]
  | _ => rfl

@[simp] theorem Value.isPair_bare (v : Value H) :
    v.bare.isPair = v.isPair := by
  rw [← relocated_forgetting, isPair_relocated]

/-- A scope whose values have no places. -/
def Scope.bare (scope : Scope H) : Scope H :=
  ⟨scope.bindings.map Value.bare, scope.parent⟩

/-- The same scopes with no places in their values. -/
def Forest.bare (forest : Forest H) : Forest H :=
  ⟨forest.scopes.map Scope.bare⟩

/-- A session with no places in the values of its scopes. -/
def Session.bare (s : Session H) : Session H :=
  { s with forest := s.forest.bare }

theorem Session.relocated_forgetting (s : Session H) :
    s.relocated .forgetting = s.bare := by
  have hscopes : (Scope.relocated .forgetting : Scope H → Scope H) =
      Scope.bare := by
    funext scope
    rw [Scope.relocated, Scope.bare, Value.relocated_forgetting]
  rw [relocated, Forest.relocated, hscopes]
  rfl

theorem Session.bare_bind (s : Session H) (scope : ScopeId) (name : String)
    (value : Value H) :
    (s.bind scope name value).bare = s.bare.bind scope name value.bare := by
  rw [← relocated_forgetting, relocated_bind, relocated_forgetting,
    Value.relocated_forgetting]

end Lisp
