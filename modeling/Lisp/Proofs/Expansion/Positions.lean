import Lisp.Evaluator.Expansion
import Lisp.Value.Equality

/-!
What macro expansion puts where.  A path through the cells of a body leads to
the same place in its expansion; only where the body has the name of a
parameter, the expansion has the argument, and goes on as the argument does.
-/

namespace Lisp

variable {H : Type}

/-- The two parts of a cell. -/
inductive Side where
  | car
  | cdr
  deriving Repr, DecidableEq

/-- One part of a cell. -/
def Value.part? : Value H → Side → Option (Value H)
  | .pair _ car _ _, .car => some car
  | .pair _ _ cdr _, .cdr => some cdr
  | _, _ => none

/-- What a path through the cells of a value leads to. -/
def Value.at? (v : Value H) (path : List Side) : Option (Value H) :=
  path.foldlM Value.part? v

namespace Value

section Substitution

variable {params : List String} {arguments : Bindings (Value H)}
  {scope : ScopeId}

theorem substituteFrom_param {name : String} {argument : Value H}
    (hparam : name ∈ params) (hbound : arguments.get? name = some argument)
    (place : Option Location) (index : Nat) :
    (substituteFrom params arguments scope (.ref name place) index).1 =
      argument := by
  simp [substituteFrom_ref, resolve, hparam, hbound]

/-- A leaf that is not the name of a parameter stays what it is. -/
theorem substituteFrom_leaf {leaf : Value H} (hatom : leaf.isPair = false)
    (hother : ∀ name, leaf.refName? = some name → arguments.get? name = none)
    (index : Nat) :
    (leaf.substituteFrom params arguments scope index).1 = leaf := by
  cases leaf with
  | ref name place => simp [substituteFrom_ref, resolve, hother name rfl]
  | pair => cases hatom
  | _ => rfl

/-- The expansion of a part of a body is that part of the expansion, from
whatever number on its cells are counted. -/
theorem at?_substituteFrom (params : List String)
    (arguments : Bindings (Value H)) (scope : ScopeId) {body part : Value H} {path : List Side}
    (hfound : body.at? path = some part) (index : Nat) :
    ∃ start, ∀ rest,
      (body.substituteFrom params arguments scope index).1.at? (path ++ rest) =
        (part.substituteFrom params arguments scope start).1.at? rest := by
  induction path generalizing body index with
  | nil =>
      obtain rfl := Option.some.inj hfound
      exact ⟨index, fun rest => rfl⟩
  | cons side path ih =>
      obtain ⟨inner, hfirst, hfound⟩ := Option.bind_eq_some_iff.mp hfound
      cases body with
      | pair id car cdr place =>
          rw [substituteFrom_pair]
          cases side with
          | car =>
              obtain rfl := Option.some.inj hfirst
              exact ih hfound (index + 1)
          | cdr =>
              obtain rfl := Option.some.inj hfirst
              exact ih hfound _
      | _ => cases hfirst

end Substitution

end Value

/-- Expansion is one simultaneous substitution.  Wherever a path leads in the
body, it leads in the expansion to a copy of the same cell, at the same place;
or, from the name of a parameter on, to the argument and all of its parts, which
are not searched again; or else to the same leaf. -/
theorem expansion_simultaneous (params : List String)
    (arguments : List (Value H)) (hdistinct : params.Nodup)
    (hagree : arguments.length = params.length) (scope : ScopeId)
    (body part : Value H) (path : List Side)
    (hfound : body.at? path = some part) :
    let expansion := body.substitute params (.ofLists params arguments) scope
    (∀ id car cdr place, part = .pair id car cdr place →
      ∃ index head rest,
        expansion.at? path =
          some (.pair (.copied scope index) head rest place)) ∧
    (∀ (i : Nat) (name : String) (argument : Value H), params[i]? = some name →
      arguments[i]? = some argument → ∀ place, part = .ref name place →
      ∀ rest, expansion.at? (path ++ rest) = argument.at? rest) ∧
    (part.isPair = false →
      (∀ name, part.refName? = some name → name ∉ params) →
      expansion.at? path = some part) := by
  obtain ⟨start, hexpanded⟩ :=
    Value.at?_substituteFrom params (.ofLists params arguments) scope hfound 0
  have hhere := hexpanded []
  rw [List.append_nil] at hhere
  refine ⟨?_, ?_, ?_⟩
  · rintro id car cdr place rfl
    rw [Value.substituteFrom_pair] at hhere
    exact ⟨start, _, _, hhere⟩
  · rintro i name argument hnamed hgiven place rfl rest
    have hmem : (name, argument) ∈ params.zip arguments := by
      apply List.mem_of_getElem?
      rw [List.getElem?_zip_eq_some]
      exact ⟨hnamed, hgiven⟩
    have hbound := Bindings.get?_ofLists_of_mem hdistinct
      (Nat.le_of_eq hagree.symm) hmem
    rw [← Value.substituteFrom_param (List.mem_of_getElem? hnamed) hbound place
      start]
    exact hexpanded rest
  · intro hatom hother
    have hfree : ∀ name, part.refName? = some name →
        (Bindings.ofLists params arguments).get? name = none :=
      fun name hnamed => Bindings.get?_ofLists_of_not_mem (hother name hnamed) _
    rw [Value.substituteFrom_leaf hatom hfree] at hhere
    exact hhere

/-- `(quote (a) . b)`. -/
def sampleTemplate : Value Empty :=
  .pair (.made 0 0) (.ref "quote" none)
    (.pair (.made 0 1) (.list 1 [.ref "a" none]) (.ref "b" none) none) none

/-- In the tail the argument for `b` stands, and the `a` in it stays. -/
theorem sampleTemplate_simultaneous :
    (sampleTemplate.substitute ["a", "b"]
      (.ofLists ["a", "b"] [.int 1, .list 2 [.ref "a" none]]) ⟨3⟩).at?
        [.cdr, .cdr, .car] = some (.ref "a" none) := by
  have hdistinct : ["a", "b"].Nodup := by decide
  have htail : sampleTemplate.at? [.cdr, .cdr] = some (.ref "b" none) := rfl
  obtain ⟨-, hparameter, -⟩ := expansion_simultaneous ["a", "b"]
    [.int 1, .list 2 [.ref "a" none]] hdistinct rfl ⟨3⟩ _ _ _ htail
  exact hparameter 1 "b" (.list 2 [.ref "a" none]) rfl rfl none rfl [.car]

end Lisp
