import Mathlib
import Lisp.Scope.Forest
import Lisp.Proofs.Scopes.ByteOrder

/-!
What is visible from a scope.  The listing merges the bindings along the chain of
scopes, a lookup walks that chain; both go by the nearest scope that binds the
name.  As no name is listed twice, the order of the listing is the order of the
names, whatever order the bindings of a scope are enumerated in.
-/

namespace Lisp

namespace Bindings

variable {α : Type} {b c : Bindings α}

/-- Bindings of the same names to the same values have the same entries. -/
theorem perm_entries (hsame : ∀ name, b.get? name = c.get? name) :
    b.entries.Perm c.entries := by
  rw [List.perm_ext_iff_of_nodup (.of_map Prod.fst b.distinct)
    (.of_map Prod.fst c.distinct)]
  rintro ⟨name, value⟩
  rw [mem_entries_iff, mem_entries_iff, hsame]

theorem get?_of_perm (hperm : b.entries.Perm c.entries) (name : String) :
    b.get? name = c.get? name := by
  apply Option.ext
  intro value
  rw [← mem_entries_iff, ← mem_entries_iff, hperm.mem_iff]

/-- Entries put in the order of their names are in that order strictly. -/
theorem mergeSort_pairwise {listed : List (String × α)}
    (hperm : listed.Perm b.entries) :
    (listed.mergeSort fun a b => a.1 ≤ b.1).Pairwise fun a b => a.1 < b.1 := by
  have hsorted : (listed.mergeSort fun a b => a.1 ≤ b.1).Pairwise
      fun a b => decide (a.1 ≤ b.1) = true := by
    apply List.pairwise_mergeSort
    · intro x y z hxy hyz
      exact decide_eq_true
        (le_trans (of_decide_eq_true hxy) (of_decide_eq_true hyz))
    · intro x y
      rw [Bool.or_eq_true, decide_eq_true_iff, decide_eq_true_iff]
      exact le_total x.1 y.1
  have hdistinct : (listed.mergeSort fun a b => a.1 ≤ b.1).Pairwise
      fun a b => a.1 ≠ b.1 := by
    have hall := ((List.mergeSort_perm listed fun a b => a.1 ≤ b.1).trans
      hperm).map Prod.fst
    exact List.pairwise_map.mp (hall.nodup_iff.mpr b.distinct)
  apply hsorted.imp₂ _ hdistinct
  intro x y hle hne
  exact lt_of_le_of_ne (of_decide_eq_true hle) hne

/-- Entries put in the order of their names are the same list however they were
enumerated. -/
theorem mergeSort_eq {listed others : List (String × α)}
    (hperm : listed.Perm b.entries) (hpermToo : others.Perm b.entries) :
    (listed.mergeSort fun a b => a.1 ≤ b.1) =
      others.mergeSort fun a b => a.1 ≤ b.1 := by
  apply List.Perm.eq_of_pairwise _ (mergeSort_pairwise hperm)
    (mergeSort_pairwise hpermToo)
  · exact ((List.mergeSort_perm listed _).trans hperm).trans
      ((List.mergeSort_perm others _).trans hpermToo).symm
  · intro x y _ _ hless hgreater
    exact absurd hgreater (lt_asymm hless)

end Bindings

namespace Forest

variable {H : Type} {forest other : Forest H}

/-- The forests that opening root scopes and scopes of calls, binding names and
clearing scopes build, in any order. -/
inductive Built : Forest H → Prop where
  | empty : Built .empty
  | root {forest : Forest H} (hbuilt : Built forest) :
      Built (forest.push ⟨.empty, none⟩)
  | new {forest : Forest H} (hbuilt : Built forest) (names : List String)
      (values : List (Value H)) {outer : ScopeId}
      (hold : outer.index < forest.scopes.size) :
      Built (forest.push ⟨.ofLists names values, some outer⟩)
  | set {forest : Forest H} (hbuilt : Built forest) (id : ScopeId)
      (name : String) (value : Value H) : Built (forest.set id name value)
  | clear {forest : Forest H} (hbuilt : Built forest) (id : ScopeId) :
      Built (forest.clear id)

/-- Clearing a scope moves no scope. -/
@[simp] theorem parent?_clear (forest : Forest H) (id other : ScopeId) :
    (forest.clear id).parent? other = forest.parent? other := by
  simp only [parent?, clear, Array.getElem?_modify]
  split
  · cases forest.scopes[other.index]? <;> rfl
  · rfl

/-- A scope is younger than the one around it. -/
theorem Built.older (hbuilt : forest.Built) {id outer : ScopeId}
    (haround : forest.parent? id = some outer) : outer.index < id.index := by
  induction hbuilt with
  | empty => cases haround
  | root _ ih =>
      rw [parent?_push] at haround
      split at haround
      · cases haround
      · exact ih haround
  | new _ names values hold ih =>
      rw [parent?_push] at haround
      split at haround
      · next hnewest =>
          cases haround
          rwa [hnewest]
      · exact ih haround
  | set _ id name value ih =>
      rw [parent?_set] at haround
      exact ih haround
  | clear _ id ih =>
      rw [parent?_clear] at haround
      exact ih haround

/-- A lookup goes from scope to scope until one binds the name. -/
theorem Built.lookup_eq_parent (hbuilt : forest.Built) (id : ScopeId)
    (name : String) :
    forest.lookup id name = (forest.get? id name).or
      ((forest.parent? id).bind fun outer => forest.lookup outer name) := by
  rw [lookup_eq]
  cases haround : forest.parent? id with
  | none => rfl
  | some outer =>
      dsimp only [Option.bind_some]
      rw [if_pos (hbuilt.older haround)]

/-- What a name stands for is what the nearest scope that binds it binds it
to. -/
theorem lookup_eq_owner (forest : Forest H) (id : ScopeId) (name : String) :
    forest.lookup id name =
      (forest.owner? id name).bind fun owner => forest.get? owner name := by
  unfold lookup owner?
  induction forest.chain id with
  | nil => rfl
  | cons scope rest ih =>
      rw [List.findSome?_cons, List.find?_cons]
      cases hbound : forest.get? scope name with
      | none => exact ih
      | some value => exact hbound.symm

/-- Bindings merged along a list of scopes bind a name to what the first of them
that binds it binds it to. -/
theorem get?_foldl_shadowing (forest : Forest H) (scopes : List ScopeId)
    (inner : Bindings (Value H)) (name : String) :
    (scopes.foldl (fun inner outer =>
      inner.shadowing (forest.bindings outer)) inner).get? name =
        (inner.get? name).or
          (scopes.findSome? fun scope => forest.get? scope name) := by
  induction scopes generalizing inner with
  | nil => exact Option.or_none.symm
  | cons scope rest ih =>
      rw [List.foldl_cons, ih, Bindings.get?_shadowing, List.findSome?_cons,
        Option.or_assoc, get?]
      cases (forest.bindings scope).get? name with
      | none => rw [Option.none_or]
      | some value => rw [Option.some_or]

@[simp] theorem get?_merged (forest : Forest H) (id : ScopeId)
    (name : String) : (forest.merged id).get? name = forest.lookup id name := by
  rw [merged, get?_foldl_shadowing, Bindings.get?_empty, Option.none_or, lookup]

/-- Whether two forests differ at most in the order in which the bindings of each
scope are enumerated. -/
structure Reordered (forest other : Forest H) : Prop where
  parents : ∀ id, other.parent? id = forest.parent? id
  entries : ∀ id, (other.bindings id).entries.Perm (forest.bindings id).entries

/-- The order of the bindings of a scope does not matter to a lookup. -/
theorem Reordered.lookup (hreordered : forest.Reordered other) (id : ScopeId)
    (name : String) : other.lookup id name = forest.lookup id name := by
  induction hindex : id.index using Nat.strongRecOn generalizing id with
  | _ index ih =>
      have hhere : other.get? id name = forest.get? id name :=
        Bindings.get?_of_perm (hreordered.entries id) name
      rw [other.lookup_eq, forest.lookup_eq, hhere, hreordered.parents]
      cases forest.parent? id with
      | none => rfl
      | some outer =>
          dsimp only
          split
          · next holder => rw [ih outer.index (hindex ▸ holder) outer rfl]
          · rfl

/-- What is visible from a scope is the graph of lookups from it.  A lookup takes
the nearest scope that binds the name; the listing has a name with a value just
if a lookup gives that value, has no name twice, goes up by the bytes of the names
and is the same however the bindings of the scopes, and those merged, are
enumerated. -/
theorem visible_graph_of_lookup (hbuilt : forest.Built) (id : ScopeId) :
    (∀ name, forest.lookup id name =
      (forest.owner? id name).bind fun owner => forest.get? owner name) ∧
    (∀ name, forest.lookup id name = (forest.get? id name).or
      ((forest.parent? id).bind fun outer => forest.lookup outer name)) ∧
    (∀ name value, (name, value) ∈ forest.visible id ↔
      forest.lookup id name = some value) ∧
    ((forest.visible id).map Prod.fst).Nodup ∧
    ((forest.visible id).Pairwise fun a b => utf8Bytes a.1 < utf8Bytes b.1) ∧
    ∀ (other : Forest H) (listed : List (String × Value H)),
      forest.Reordered other →
      listed.Perm (other.merged id).entries →
      (listed.mergeSort fun a b => a.1 ≤ b.1) = forest.visible id := by
  have hsorted : (forest.visible id).Pairwise fun a b => a.1 < b.1 :=
    Bindings.mergeSort_pairwise (.refl _)
  refine ⟨forest.lookup_eq_owner id, hbuilt.lookup_eq_parent id, ?_, ?_, ?_, ?_⟩
  · intro name value
    rw [visible, List.mem_mergeSort, Bindings.mem_entries_iff, get?_merged]
  · exact List.pairwise_map.mpr (hsorted.imp ne_of_lt)
  · exact hsorted.imp utf8Bytes_lt
  · intro other listed hreordered hlisted
    have hmerged : (other.merged id).entries.Perm (forest.merged id).entries := by
      apply Bindings.perm_entries
      intro name
      rw [get?_merged, get?_merged, hreordered.lookup]
    exact Bindings.mergeSort_eq (hlisted.trans hmerged) (.refl _)

/-- A root scope, a call inside it and a call inside that, the scope in the middle
having been cleared since. -/
def clearedBetween : Forest Empty :=
  let root := (empty.push ⟨.empty, none⟩).set ⟨0⟩ "x" (.int 1)
  let middle := root.push ⟨.ofLists ["x"] [.int 2], some ⟨0⟩⟩
  let inner := middle.push ⟨.ofLists ["é", "a"] [.int 3, .int 4], some ⟨1⟩⟩
  inner.clear ⟨1⟩

/-- What the cleared scope hid is visible again, in its place by the bytes of the
names. -/
theorem visible_of_clearedBetween :
    clearedBetween.Built ∧
    ("x", .int 1) ∈ clearedBetween.visible ⟨2⟩ ∧
    ("x", .int 2) ∉ clearedBetween.visible ⟨2⟩ ∧
    (clearedBetween.visible ⟨2⟩).Pairwise
      (fun a b => utf8Bytes a.1 < utf8Bytes b.1) ∧
    ([("x", .int 1), ("é", .int 3), ("a", .int 4)].mergeSort
      fun a b => a.1 ≤ b.1) = clearedBetween.visible ⟨2⟩ := by
  have hroot : Built ((empty : Forest Empty).push ⟨.empty, none⟩) :=
    Built.empty.root
  have hbuilt : clearedBetween.Built :=
    ((hroot.set ⟨0⟩ "x" (.int 1)).new ["x"] [.int 2]
      (by decide : 0 < 1)).new ["é", "a"] [.int 3, .int 4]
      (by decide : 1 < 2) |>.clear ⟨1⟩
  have hlookup : clearedBetween.lookup ⟨2⟩ "x" = some (.int 1) := by cbv
  obtain ⟨-, -, hgraph, -, hsorted, hlisted⟩ :=
    visible_graph_of_lookup hbuilt ⟨2⟩
  refine ⟨hbuilt, (hgraph _ _).mpr hlookup, ?_, hsorted, ?_⟩
  · rw [hgraph, hlookup]
    simp
  · apply hlisted clearedBetween _ ⟨fun _ => rfl, fun _ => .refl _⟩
    have hentries : (clearedBetween.merged ⟨2⟩).entries =
        [("é", .int 3), ("a", .int 4), ("x", .int 1)] := by cbv
    rw [hentries]
    exact @List.perm_append_comm _ [("x", Value.int 1)] _

end Forest

end Lisp
