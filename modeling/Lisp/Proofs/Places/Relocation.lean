import Lisp.Evaluator.Expansion
import Lisp.Session.Basic
import Lisp.Value.Equality

/-!
Places replaced by others.  Names and cells remember where they were written; a
relocation gives them other places, or takes the places away.  Everything else
stays, identities too, so what was shared is shared as before.  Printing,
comparing, looking up and expanding macros treat a value and its relocated copy
alike.
-/

namespace Lisp

variable {H α β : Type}

/-- What to put in place of places: nothing where there is none, and of two places
that stand in for one another still the first. -/
structure Relocation where
  place : Option Location → Option Location
  place_none : place none = none
  place_or : ∀ own other : Option Location,
    place (own.or other) = (place own).or (place other)

namespace Relocation

/-- No places at all. -/
def forgetting : Relocation where
  place _ := none
  place_none := rfl
  place_or _ _ := rfl

/-- Every place moved. -/
def moving (move : Location → Location) : Relocation where
  place := Option.map move
  place_none := rfl
  place_or own _ := by cases own <;> rfl

end Relocation

/-- The same fault blamed on another place. -/
def Fault.relocated (m : Relocation) (fault : Fault) : Fault :=
  { fault with place := m.place fault.place }

theorem Fault.relocated_unplaced (m : Relocation) (cause : Cause) :
    Fault.relocated m { cause } = { cause } := by
  rw [relocated, m.place_none]

theorem Fault.relocated_orAt (m : Relocation) (fault : Fault)
    (place : Option Location) :
    (fault.orAt place).relocated m =
      (fault.relocated m).orAt (m.place place) := by
  simp only [relocated, orAt, m.place_or]

/-- The same form with other places. -/
def Datum.relocated (m : Relocation) : Datum → Datum
  | .ref name place => .ref name (m.place place)
  | .pair car cdr place =>
      .pair (car.relocated m) (cdr.relocated m) (m.place place)
  | form => form

/-- The same value with other places. -/
def Value.relocated (m : Relocation) : Value H → Value H
  | .ref name place => .ref name (m.place place)
  | .pair id car cdr place =>
      .pair id (car.relocated m) (cdr.relocated m) (m.place place)
  | .closure id params body scope =>
      .closure id params (body.relocated m) scope
  | .expander id params body => .expander id params (body.relocated m)
  | v => v

section Values

variable {m : Relocation}

namespace Value

@[simp] theorem typeName_relocated (v : Value H) :
    (v.relocated m).typeName = v.typeName := by
  cases v <;> rfl

@[simp] theorem isPair_relocated (v : Value H) :
    (v.relocated m).isPair = v.isPair := by
  cases v <;> rfl

@[simp] theorem number?_relocated (v : Value H) :
    (v.relocated m).number? = v.number? := by
  cases v <;> rfl

@[simp] theorem relocated_ofNumber (n : Number) :
    (Value.ofNumber n : Value H).relocated m = .ofNumber n := by
  cases n <;> rfl

theorem place_pair (id : ObjectId) (car cdr : Value H)
    (own : Option Location) :
    (pair id car cdr own).place = own.or car.place := by
  cases own <;> rfl

@[simp] theorem place_relocated (v : Value H) :
    (v.relocated m).place = m.place v.place := by
  induction v with
  | ref => rfl
  | pair id car cdr own ih _ =>
      rw [relocated, place_pair, place_pair, m.place_or, ih]
  | _ => exact m.place_none.symm

@[simp] theorem items?_relocated (v : Value H) :
    (v.relocated m).items? = v.items?.map (List.map (relocated m)) := by
  induction v with
  | pair id car cdr place _ ih =>
      simp only [relocated, items?, ih, Option.map_map]
      rfl
  | _ => rfl

@[simp] theorem relocated_listFrom (batch index : Nat)
    (items : List (Value H)) :
    (listFrom batch index items).relocated m =
      listFrom batch index (items.map (relocated m)) := by
  induction items generalizing index with
  | nil => rfl
  | cons item items ih => simp [listFrom, relocated, ih, m.place_none]

@[simp] theorem relocated_list (batch : Nat) (items : List (Value H)) :
    (list batch items).relocated m = list batch (items.map (relocated m)) :=
  relocated_listFrom batch 0 items

/-- Only a cell has a cell as its relocated copy. -/
theorem eq_pair_of_relocated {v : Value H} {id : ObjectId} {car cdr : Value H}
    {place : Option Location}
    (hshape : v.relocated m = .pair id car cdr place) :
    ∃ head rest own, v = .pair id head rest own := by
  cases v with
  | pair other head rest own =>
      cases hshape
      exact ⟨head, rest, own, rfl⟩
  | _ => cases hshape

/-- Cells are numbered alike, whatever their places. -/
theorem label_relocated (batch : Nat) (form : Datum) (index : Nat) :
    (label batch (form.relocated m) index : Value H × Nat) =
      ((label batch form index : Value H × Nat).1.relocated m,
        (label batch form index : Value H × Nat).2) := by
  induction form generalizing index with
  | pair car cdr place ihCar ihCdr =>
      simp only [Datum.relocated, label, relocated, ihCar, ihCdr]
  | _ => rfl

theorem relocated_ofDatum (batch : Nat) (form : Datum) :
    (ofDatum batch form : Value H).relocated m =
      ofDatum batch (form.relocated m) :=
  (congrArg Prod.fst (label_relocated batch form 0)).symm

end Value

/-- Something a printer owes, with other places. -/
def Pending.relocated (m : Relocation) : Pending H → Pending H
  | .value v => .value (v.relocated m)
  | .verbatim s => .verbatim s

theorem Value.rest_relocated (v : Value H) :
    (v.relocated m).rest = v.rest.map (Pending.relocated m) := by
  induction v with
  | pair id car cdr place _ ih =>
      simp only [Value.relocated, Value.rest_pair, ih, List.map_cons,
        Pending.relocated]
  | _ => rfl

theorem Pending.unfold_relocated (item : Pending H) :
    (item.relocated m).unfold =
      (item.unfold.1, item.unfold.2.map (Pending.relocated m)) := by
  cases item with
  | value v =>
      cases v with
      | pair id car cdr place =>
          simp only [Pending.relocated, Value.relocated, Pending.unfold,
            Value.unfold, Value.rest_relocated, List.map_cons]
      | _ => rfl
  | verbatim s => rfl

theorem writeAll_relocated (out : String) (todo : List (Pending H)) :
    writeAll out (todo.map (Pending.relocated m)) = writeAll out todo := by
  induction out, todo using writeAll.induct with
  | case1 out => simp only [List.map_nil, writeAll]
  | case2 out item todo ih =>
      rw [List.map_cons, writeAll, writeAll, Pending.unfold_relocated,
        ← List.map_append, ih]

/-- Places are not printed. -/
@[simp] theorem Value.text_relocated (v : Value H) :
    (v.relocated m).text = v.text :=
  writeAll_relocated "" [.value v]

theorem Value.equalAtom_relocated (a b : Value H) :
    (a.relocated m).equalAtom (b.relocated m) = a.equalAtom b := by
  cases a <;> cases b <;> rfl

/-- A comparison with other places. -/
def relocatedComparison (m : Relocation) (todo : Value H × Value H × Bool) :
    Value H × Value H × Bool :=
  (todo.1.relocated m, todo.2.1.relocated m, todo.2.2)

/-- Two values that are not both cells are compared at once. -/
theorem equalAll_relocatedComparison {a b : Value H}
    (hapart : ∀ i c d p j e f q, a = .pair i c d p → b = .pair j e f q → False)
    (inTail : Bool) (todo : List (Value H × Value H × Bool)) :
    equalAll (relocatedComparison m (a, b, inTail) :: todo) =
      if (inTail && (a.isPair || b.isPair)) = true then .ok false
      else
        match a.equalAtom b with
        | .ok true => equalAll todo
        | .ok false => .ok false
        | .error cause => .error cause := by
  have hapartToo : ∀ i c d p j e f q,
      a.relocated m = .pair i c d p → b.relocated m = .pair j e f q →
      False := by
    intro i c d p j e f q hleft hright
    obtain ⟨_, _, _, hleft⟩ := Value.eq_pair_of_relocated hleft
    obtain ⟨_, _, _, hright⟩ := Value.eq_pair_of_relocated hright
    exact hapart _ _ _ _ _ _ _ _ hleft hright
  have hcompared :=
    equalAll.eq_3 (a.relocated m) (b.relocated m) inTail todo hapartToo
  rw [Value.isPair_relocated, Value.isPair_relocated,
    Value.equalAtom_relocated] at hcompared
  exact hcompared

theorem equalAll_relocated (todo : List (Value H × Value H × Bool)) :
    equalAll (todo.map (relocatedComparison m)) = equalAll todo := by
  induction todo using equalAll.induct with
  | case1 => rfl
  | case2 a d p j b e q inTail todo ih =>
      simp only [List.map_cons, relocatedComparison, Value.relocated, equalAll,
        if_true]
      exact ih
  | case3 i a d p j b e q inTail todo hdiffer ih =>
      simp only [List.map_cons, relocatedComparison, Value.relocated, equalAll,
        hdiffer, if_false]
      exact ih
  | case4 a b inTail todo hapart hends =>
      rw [List.map_cons, equalAll_relocatedComparison hapart,
        equalAll.eq_3 _ _ _ _ hapart]
      simp only [hends, if_true]
  | case5 a b inTail todo hapart hgoes hsame ih =>
      rw [List.map_cons, equalAll_relocatedComparison hapart,
        equalAll.eq_3 _ _ _ _ hapart]
      simp only [hgoes, hsame, ih]
  | case6 a b inTail todo hapart hgoes hdiffer =>
      rw [List.map_cons, equalAll_relocatedComparison hapart,
        equalAll.eq_3 _ _ _ _ hapart]
      simp only [hgoes, hdiffer]
  | case7 a b inTail todo hapart hgoes cause hfails =>
      rw [List.map_cons, equalAll_relocatedComparison hapart,
        equalAll.eq_3 _ _ _ _ hapart]
      simp only [hgoes, hfails]

/-- Places do not count when programs compare values. -/
@[simp] theorem Value.equal_relocated (a b : Value H) :
    (a.relocated m).equal (b.relocated m) = a.equal b :=
  equalAll_relocated [(a, b, false)]

@[simp] theorem Value.order_relocated (a b : Value H) :
    (a.relocated m).order (b.relocated m) = a.order b := by
  simp only [Value.order, number?_relocated, typeName_relocated]

@[simp] theorem Value.arithmetic_relocated (op : ArithOp) (a b : Value H) :
    (a.relocated m).arithmetic op (b.relocated m) =
      (a.arithmetic op b).map (Value.relocated m) := by
  simp only [Value.arithmetic, number?_relocated, typeName_relocated]
  cases a.number? with
  | none => rfl
  | some x =>
      cases b.number? with
      | none => rfl
      | some y =>
          cases hcombined : x.combine op y <;> simp [hcombined, Except.map]

end Values

/-- The same names bound to what `f` makes of their values. -/
def Bindings.map (f : α → β) (b : Bindings α) : Bindings β where
  entries := b.entries.map fun entry => (entry.1, f entry.2)
  distinct := by
    rw [List.map_map]
    exact b.distinct

theorem getEntry?_map (f : α → β) (name : String)
    (entries : List (String × α)) :
    getEntry? name (entries.map fun entry => (entry.1, f entry.2)) =
      ( getEntry? name entries).map f := by
  induction entries with
  | nil => rfl
  | cons entry rest ih =>
      by_cases hhere : entry.1 = name
      · simp [hhere, getEntry?]
      · simp [hhere, getEntry?, ih]

theorem putEntry_map (f : α → β) (name : String) (value : α)
    (entries : List (String × α)) :
    putEntry name (f value) (entries.map fun entry => (entry.1, f entry.2)) =
      (putEntry name value entries).map fun entry => (entry.1, f entry.2) := by
  induction entries with
  | nil => rfl
  | cons entry rest ih =>
      by_cases hhere : entry.1 = name
      · simp [putEntry, hhere]
      · simp [putEntry, hhere, ih]

namespace Bindings

theorem ext_entries {b c : Bindings α} (hsame : b.entries = c.entries) :
    b = c := by
  cases b
  cases c
  cases hsame
  rfl

@[simp] theorem get?_map (f : α → β) (b : Bindings α) (name : String) :
    (b.map f).get? name = (b.get? name).map f :=
  getEntry?_map f name b.entries

theorem map_insert (f : α → β) (b : Bindings α) (name : String) (value : α) :
    (b.insert name value).map f = (b.map f).insert name (f value) :=
  ext_entries (putEntry_map f name value b.entries).symm

theorem map_foldl_insert (f : α → β) (entries : List (String × α))
    (b : Bindings α) :
    (entries.foldl (fun b entry => b.insert entry.1 entry.2) b).map f =
      (entries.map fun entry => (entry.1, f entry.2)).foldl
        (fun b entry => b.insert entry.1 entry.2) (b.map f) := by
  induction entries generalizing b with
  | nil => rfl
  | cons entry entries ih =>
      simp only [List.foldl_cons, List.map_cons, ih, map_insert]

theorem map_ofLists (f : α → β) (names : List String) (values : List α) :
    (ofLists names values).map f = ofLists names (values.map f) := by
  simp only [ofLists, map_foldl_insert, List.zip_map_right]
  rfl

@[simp] theorem names_map (f : α → β) (b : Bindings α) :
    (b.map f).names = b.names := by
  rw [names, map, List.map_map]
  rfl

theorem map_shadowing (f : α → β) (inner outer : Bindings α) :
    (inner.shadowing outer).map f = (inner.map f).shadowing (outer.map f) := by
  apply ext_entries
  simp only [shadowing, names_map]
  simp only [map, List.map_append, List.filter_map]
  rfl

end Bindings

section Sessions

variable {m : Relocation}

/-- Expanding a relocated macro body with relocated arguments gives the relocated
expansion. -/
theorem Value.substituteFrom_relocated (params : List String)
    (arguments : Bindings (Value H)) (scope : ScopeId) (body : Value H)
    (index : Nat) :
    (body.relocated m).substituteFrom params (arguments.map (relocated m)) scope
        index =
      ((body.substituteFrom params arguments scope index).1.relocated m,
        (body.substituteFrom params arguments scope index).2) := by
  induction body generalizing index with
  | ref name place =>
      simp only [relocated, substituteFrom_ref, resolve, Bindings.get?_map]
      split
      · cases arguments.get? name <;> rfl
      · rfl
  | pair id car cdr place ihCar ihCdr =>
      simp only [relocated, substituteFrom_pair, ihCar, ihCdr]
  | _ => rfl

theorem Value.substitute_relocated (params : List String)
    (arguments : Bindings (Value H)) (scope : ScopeId) (body : Value H) :
    (body.relocated m).substitute params (arguments.map (relocated m)) scope =
      (body.substitute params arguments scope).relocated m := by
  rw [substitute, substituteFrom_relocated]
  rfl

/-- A scope with other places in its values. -/
def Scope.relocated (m : Relocation) (scope : Scope H) : Scope H :=
  ⟨scope.bindings.map (Value.relocated m), scope.parent⟩

/-- The same scopes with other places in their values. -/
def Forest.relocated (m : Relocation) (forest : Forest H) : Forest H :=
  ⟨forest.scopes.map (Scope.relocated m)⟩

namespace Forest

@[simp] theorem parent?_relocated (forest : Forest H) (id : ScopeId) :
    (forest.relocated m).parent? id = forest.parent? id := by
  simp only [parent?, relocated, Array.getElem?_map]
  cases forest.scopes[id.index]? <;> rfl

@[simp] theorem bindings_relocated (forest : Forest H) (id : ScopeId) :
    (forest.relocated m).bindings id =
      (forest.bindings id).map (Value.relocated m) := by
  simp only [bindings, relocated, Array.getElem?_map]
  cases forest.scopes[id.index]? <;> rfl

@[simp] theorem get?_relocated (forest : Forest H) (id : ScopeId)
    (name : String) :
    (forest.relocated m).get? id name =
      (forest.get? id name).map (Value.relocated m) := by
  rw [get?, bindings_relocated, Bindings.get?_map, get?]

theorem chainUpTo_relocated (forest : Forest H) (bound : Nat) (id : ScopeId) :
    (forest.relocated m).chainUpTo bound id = forest.chainUpTo bound id := by
  induction bound generalizing id with
  | zero => rfl
  | succ bound ih => simp only [chainUpTo, parent?_relocated, ih]

@[simp] theorem owner?_relocated (forest : Forest H) (id : ScopeId)
    (name : String) :
    (forest.relocated m).owner? id name = forest.owner? id name := by
  simp only [owner?, chain, chainUpTo_relocated, get?_relocated,
    Option.isSome_map]

@[simp] theorem lookup_relocated (forest : Forest H) (id : ScopeId)
    (name : String) :
    (forest.relocated m).lookup id name =
      (forest.lookup id name).map (Value.relocated m) := by
  simp only [lookup, chain, chainUpTo_relocated, get?_relocated]
  exact (List.map_findSome? ..).symm

theorem merged_relocated (forest : Forest H) (id : ScopeId) :
    (forest.relocated m).merged id =
      (forest.merged id).map (Value.relocated m) := by
  have halong : ∀ (scopes : List ScopeId) (inner : Bindings (Value H)),
      scopes.foldl (fun inner outer =>
          inner.shadowing ((forest.relocated m).bindings outer))
          (inner.map (Value.relocated m)) =
        (scopes.foldl (fun inner outer =>
          inner.shadowing (forest.bindings outer)) inner).map
            (Value.relocated m) := by
    intro scopes
    induction scopes with
    | nil => exact fun _ => rfl
    | cons scope scopes ih =>
        intro inner
        rw [List.foldl_cons, List.foldl_cons, bindings_relocated,
          ← Bindings.map_shadowing, ih]
  rw [merged, merged, chain, chain, chainUpTo_relocated]
  exact halong _ .empty

/-- The same names are visible in the same order. -/
theorem visible_relocated (forest : Forest H) (id : ScopeId) :
    (forest.relocated m).visible id =
      (forest.visible id).map fun entry =>
        (entry.1, entry.2.relocated m) := by
  rw [visible, visible, merged_relocated, List.map_mergeSort]
  · rfl
  · exact fun _ _ _ _ => rfl

theorem relocated_set (forest : Forest H) (id : ScopeId) (name : String)
    (value : Value H) :
    (forest.set id name value).relocated m =
      (forest.relocated m).set id name (value.relocated m) := by
  simp only [set, relocated, Forest.mk.injEq]
  apply Array.ext_getElem?
  intro i
  simp only [Array.getElem?_map, Array.getElem?_modify]
  by_cases hhere : id.index = i
  · simp only [hhere, if_true, Option.map_map]
    cases forest.scopes[i]? with
    | none => rfl
    | some scope => simp [Scope.relocated, Bindings.map_insert]
  · simp only [hhere, if_false]

theorem relocated_push (forest : Forest H) (scope : Scope H) :
    (forest.push scope).relocated m =
      (forest.relocated m).push (scope.relocated m) := by
  simp [push, relocated]

end Forest

/-- There are no places in what is bound to begin with. -/
theorem initialBindings_relocated :
    (initialBindings : Bindings (Value H)).map (Value.relocated m) =
      initialBindings := by
  rw [initialBindings, Bindings.map_ofLists, List.map_append, List.map_map]
  rfl

/-- A session with other places in the values of its scopes. -/
def Session.relocated (m : Relocation) (s : Session H) : Session H :=
  { s with forest := s.forest.relocated m }

namespace Session

theorem relocated_fresh (limit : Nat) (sink : Sink) (recording : Bool) :
    (fresh limit sink recording : Session H).relocated m =
      fresh limit sink recording := by
  simp only [relocated, fresh, Forest.relocated_push, Scope.relocated,
    initialBindings_relocated]
  simp [Forest.relocated, Forest.empty]

theorem relocated_bind (s : Session H) (scope : ScopeId) (name : String)
    (value : Value H) :
    (s.bind scope name value).relocated m =
      (s.relocated m).bind scope name (value.relocated m) := by
  simp only [bind, relocated, Forest.relocated_set]

theorem relocated_openScope (s : Session H) (bindings : Bindings (Value H))
    (parent : Option ScopeId) :
    (s.openScope ⟨bindings, parent⟩).relocated m =
      (s.relocated m).openScope
        ⟨bindings.map (Value.relocated m), parent⟩ := by
  simp only [openScope, relocated, Forest.relocated_push]
  rfl

@[simp] theorem nextScope_relocated (s : Session H) :
    (s.relocated m).nextScope = s.nextScope := by
  simp [nextScope, relocated, Forest.relocated]

theorem relocated_record (s : Session H) {event other : Event H}
    (hsame : other.entry = event.entry) :
    (s.record event).relocated m = (s.relocated m).record other := by
  simp only [record, relocated, hsame]
  split <;> rfl

end Session

end Sessions

end Lisp
