import Lisp.Scope.Bindings
import Lisp.Value.Basic

/-!
Scopes.  A forest holds every scope of a session; a scope has bindings of its
own and, unless it is a root, a parent that was opened before it.
-/

namespace Lisp

variable {H : Type}

/-- A scope: its own bindings, and the scope around it. -/
structure Scope (H : Type) where
  bindings : Bindings (Value H)
  parent : Option ScopeId

/-- All scopes, each under its number. -/
structure Forest (H : Type) where
  scopes : Array (Scope H)

namespace Forest

/-- No scopes at all. -/
def empty : Forest H :=
  ⟨#[]⟩

/-- The parent of a scope. -/
def parent? (forest : Forest H) (id : ScopeId) : Option ScopeId :=
  forest.scopes[id.index]?.bind Scope.parent

/-- The bindings of one scope. -/
def bindings (forest : Forest H) (id : ScopeId) : Bindings (Value H) :=
  match forest.scopes[id.index]? with
  | some scope => scope.bindings
  | none => .empty

/-- The scopes from `id` outwards, at most `bound` of them.  Only an older
scope can lie around a scope. -/
def chainUpTo (forest : Forest H) : Nat → ScopeId → List ScopeId
  | 0, _ => []
  | bound + 1, id =>
      id ::
        match forest.parent? id with
        | some outer =>
            if outer.index < id.index then forest.chainUpTo bound outer else []
        | none => []

/-- A scope, the scope around it, and so on outwards. -/
def chain (forest : Forest H) (id : ScopeId) : List ScopeId :=
  forest.chainUpTo (id.index + 1) id

/-- Bounds that leave room for all older scopes give the same chain. -/
theorem chainUpTo_congr (forest : Forest H) {bound other : Nat} {id : ScopeId}
    (henough : id.index < bound) (henoughToo : id.index < other) :
    forest.chainUpTo bound id = forest.chainUpTo other id := by
  induction bound generalizing other id with
  | zero => exact absurd henough (Nat.not_lt_zero _)
  | succ bound ih =>
      cases other with
      | zero => exact absurd henoughToo (Nat.not_lt_zero _)
      | succ other =>
          unfold chainUpTo
          cases forest.parent? id with
          | none => rfl
          | some outer =>
              by_cases holder : outer.index < id.index
              · have hsame : forest.chainUpTo bound outer =
                    forest.chainUpTo other outer :=
                  ih (by omega) (by omega)
                simp only [holder, if_true, hsame]
              · simp only [holder, if_false]

/-- A chain begins with its scope and goes on with the chain of the parent. -/
theorem chain_eq (forest : Forest H) (id : ScopeId) :
    forest.chain id =
      id ::
        match forest.parent? id with
        | some outer =>
            if outer.index < id.index then forest.chain outer else []
        | none => [] := by
  rw [chain, chainUpTo]
  cases forest.parent? id with
  | none => rfl
  | some outer =>
      by_cases holder : outer.index < id.index
      · have hsame : forest.chainUpTo id.index outer = forest.chain outer :=
          forest.chainUpTo_congr holder (Nat.lt_succ_self _)
        simp only [holder, if_true, hsame]
      · simp only [holder, if_false]

/-- What a name is bound to in one scope. -/
def get? (forest : Forest H) (id : ScopeId) (name : String) :
    Option (Value H) :=
  (forest.bindings id).get? name

/-- The nearest scope around `id` that binds a name. -/
def owner? (forest : Forest H) (id : ScopeId) (name : String) :
    Option ScopeId :=
  (forest.chain id).find? fun scope => (forest.get? scope name).isSome

/-- What a name stands for as seen from a scope. -/
def lookup (forest : Forest H) (id : ScopeId) (name : String) :
    Option (Value H) :=
  (forest.chain id).findSome? fun scope => forest.get? scope name

/-- A name stands for what its own scope binds it to, or else for what it stands
for in the scope around. -/
theorem lookup_eq (forest : Forest H) (id : ScopeId) (name : String) :
    forest.lookup id name =
      (forest.get? id name).or
        (match forest.parent? id with
        | some outer =>
            if outer.index < id.index then forest.lookup outer name else none
        | none => none) := by
  unfold lookup
  rw [chain_eq, List.findSome?_cons]
  cases forest.get? id name with
  | some value => rfl
  | none =>
      cases forest.parent? id with
      | none => rfl
      | some outer =>
          simp only [Option.none_or]
          split
          · rfl
          · rfl

theorem lookup_of_get? {forest : Forest H} {id : ScopeId}
    {name : String} {value : Value H}
    (hbound : forest.get? id name = some value) :
    forest.lookup id name = some value := by
  rw [lookup_eq, hbound, Option.some_or]

/-- Bind or rebind a name in one scope. -/
def set (forest : Forest H) (id : ScopeId) (name : String)
    (value : Value H) : Forest H :=
  ⟨forest.scopes.modify id.index fun scope =>
    { scope with bindings := scope.bindings.insert name value }⟩

/-- Open a scope; its number is the number of scopes there were. -/
def push (forest : Forest H) (scope : Scope H) : Forest H :=
  ⟨forest.scopes.push scope⟩

/-- Drop all bindings of one scope. -/
def clear (forest : Forest H) (id : ScopeId) : Forest H :=
  ⟨forest.scopes.modify id.index fun scope => { scope with bindings := .empty }⟩

@[simp] theorem size_set (forest : Forest H) (id : ScopeId) (name : String)
    (value : Value H) :
    (forest.set id name value).scopes.size = forest.scopes.size :=
  Array.size_modify

@[simp] theorem size_push (forest : Forest H) (scope : Scope H) :
    (forest.push scope).scopes.size = forest.scopes.size + 1 :=
  Array.size_push scope

/-- Binding a name moves no scope. -/
@[simp] theorem parent?_set (forest : Forest H) (id other : ScopeId)
    (name : String) (value : Value H) :
    (forest.set id name value).parent? other = forest.parent? other := by
  simp only [parent?, set, Array.getElem?_modify]
  split
  · cases forest.scopes[other.index]? <;> rfl
  · rfl

/-- Binding a name changes one slot of one scope. -/
theorem get?_set (forest : Forest H) (id other : ScopeId)
    (name key : String) (value : Value H) :
    (forest.set id name value).get? other key =
      if other = id ∧ key = name ∧ id.index < forest.scopes.size then
        some value
      else
        forest.get? other key := by
  by_cases hhere : id.index = other.index
  · obtain rfl : other = id := by
      cases other
      cases id
      exact congrArg ScopeId.mk hhere.symm
    simp only [get?, bindings, set, Array.getElem?_modify, if_true, true_and]
    by_cases hold : other.index < forest.scopes.size
    · simp [hold]
    · simp [hold]
  · have hdiffer : ¬ other = id := fun hsame => hhere (by rw [hsame])
    simp only [get?, bindings, set, Array.getElem?_modify, hhere, if_false,
      hdiffer, false_and]

theorem parent?_of_le (forest : Forest H) {id : ScopeId}
    (hmissing : forest.scopes.size ≤ id.index) : forest.parent? id = none := by
  simp [parent?, hmissing]

theorem get?_of_le (forest : Forest H) {id : ScopeId}
    (hmissing : forest.scopes.size ≤ id.index) (name : String) :
    forest.get? id name = none := by
  simp [get?, bindings, hmissing]

/-- A scope that is neither bound in nor opened keeps all its bindings. -/
theorem bindings_set_of_ne (forest : Forest H) {id other : ScopeId}
    (hdiffer : other ≠ id) (name : String) (value : Value H) :
    (forest.set id name value).bindings other = forest.bindings other := by
  have hapart : id.index ≠ other.index := by
    intro hsame
    cases id
    cases other
    exact hdiffer (congrArg ScopeId.mk hsame.symm)
  simp only [bindings, set, Array.getElem?_modify, hapart, if_false]

theorem bindings_push_of_lt (forest : Forest H) {id : ScopeId}
    (hold : id.index < forest.scopes.size) (scope : Scope H) :
    (forest.push scope).bindings id = forest.bindings id := by
  simp only [bindings, push, Array.getElem?_push, Nat.ne_of_lt hold, if_false]

theorem parent?_push (forest : Forest H) (scope : Scope H) (id : ScopeId) :
    (forest.push scope).parent? id =
      if id.index = forest.scopes.size then scope.parent
      else forest.parent? id := by
  simp only [parent?, push, Array.getElem?_push]
  split <;> rfl

theorem get?_push (forest : Forest H) (scope : Scope H) (id : ScopeId)
    (name : String) :
    (forest.push scope).get? id name =
      if id.index = forest.scopes.size then scope.bindings.get? name
      else forest.get? id name := by
  by_cases hfresh : id.index = forest.scopes.size
  · simp [get?, bindings, push, hfresh]
  · simp [get?, bindings, push, Array.getElem?_push, hfresh]

theorem lookup_of_le (forest : Forest H) {id : ScopeId}
    (hmissing : forest.scopes.size ≤ id.index) (name : String) :
    forest.lookup id name = none := by
  rw [lookup_eq, forest.get?_of_le hmissing, forest.parent?_of_le hmissing]
  rfl

/-- Opening a scope changes nothing for the scopes there were. -/
theorem lookup_push_of_lt (forest : Forest H) {id : ScopeId}
    (hold : id.index < forest.scopes.size) (opened : Scope H) (name : String) :
    (forest.push opened).lookup id name = forest.lookup id name := by
  induction hbound : id.index using Nat.strongRecOn generalizing id with
  | _ bound ih =>
      have hkept : ¬ id.index = forest.scopes.size := Nat.ne_of_lt hold
      rw [lookup_eq, forest.lookup_eq, get?_push, parent?_push, if_neg hkept,
        if_neg hkept]
      cases forest.parent? id with
      | none => rfl
      | some outer =>
          dsimp only
          split
          · next holder =>
              rw [ih outer.index (hbound ▸ holder) (Nat.lt_trans holder hold) rfl]
          · rfl

theorem lookup_push_of_some {forest : Forest H} {id : ScopeId} {name : String}
    {value : Value H} (hfound : forest.lookup id name = some value)
    (opened : Scope H) :
    (forest.push opened).lookup id name = some value := by
  have hold : id.index < forest.scopes.size := by
    apply Nat.lt_of_not_le
    intro hmissing
    rw [forest.lookup_of_le hmissing] at hfound
    cases hfound
  rw [forest.lookup_push_of_lt hold, hfound]

/-- What holds of a scope, and of what lies around a scope if it holds of the
scope, holds along the whole chain. -/
theorem forall_mem_chain (forest : Forest H) {p : ScopeId → Prop}
    (houtwards : ∀ id outer, p id → forest.parent? id = some outer → p outer)
    {id : ScopeId} (hstart : p id) : ∀ other ∈ forest.chain id, p other := by
  unfold chain
  generalize id.index + 1 = bound
  induction bound generalizing id with
  | zero => simp [chainUpTo]
  | succ bound ih =>
      intro other hmem
      rw [chainUpTo, List.mem_cons] at hmem
      rcases hmem with rfl | hmem
      · exact hstart
      · split at hmem
        · next outer haround =>
            split at hmem
            · exact ih (houtwards id outer hstart haround) other hmem
            · cases hmem
        · cases hmem

/-- How many scopes enclose a scope. -/
def depth (forest : Forest H) (id : ScopeId) : Nat :=
  (forest.chain id).length - 1

/-- Everything visible from a scope, inner bindings before the outer ones they
do not shadow. -/
def merged (forest : Forest H) (id : ScopeId) : Bindings (Value H) :=
  (forest.chain id).foldl
    (fun inner outer => inner.shadowing (forest.bindings outer)) .empty

/-- Everything visible from a scope, in the order of the names. -/
def visible (forest : Forest H) (id : ScopeId) : List (String × Value H) :=
  (forest.merged id).entries.mergeSort fun a b => a.1 ≤ b.1

/-- A scope in a few words. -/
def summary (forest : Forest H) (id : ScopeId) : String :=
  "Environment(" ++ toString (forest.bindings id).entries.length ++
    " bindings, depth " ++ toString (forest.depth id) ++ ")"

end Forest

end Lisp
