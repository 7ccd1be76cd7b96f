import Lisp.Proofs.Evaluation.Change

/-!
Where evaluation can get to.  A realm is a set of scopes that every new scope
joins.  If a session and a task mention, from within a realm, only scopes of the
realm, then so does everything evaluation comes to: it binds names in scopes of
the realm alone, to values that mention no others, and opens scopes inside
scopes of the realm.
-/

namespace Lisp

variable {H : Type}

/-- The scopes that the closures in a value were created in. -/
def Value.captures : Value H → List ScopeId
  | .pair _ car cdr _ => car.captures ++ cdr.captures
  | .closure _ _ body scope => scope :: body.captures
  | .expander _ _ body => body.captures
  | _ => []

/-- How many scopes a session has. -/
def Session.scopeCount (s : Session H) : Nat :=
  s.forest.scopes.size

/-- A set of scopes that depends on how many scopes there are: from `floor`
scopes on, it grows by every new scope and by nothing else. -/
structure Realm where
  holds : Nat → ScopeId → Prop
  floor : Nat
  holds_succ : ∀ {count : Nat} {id : ScopeId}, floor ≤ count →
    (holds (count + 1) id ↔ holds count id ∨ id = ⟨count⟩)

theorem Realm.holds_mono (realm : Realm) {count more : Nat} {id : ScopeId}
    (hstarted : realm.floor ≤ count) (hle : count ≤ more)
    (hinside : realm.holds count id) : realm.holds more id := by
  induction hle with
  | refl => exact hinside
  | @step more hle ih =>
      have hstartedToo : realm.floor ≤ more := Nat.le_trans hstarted hle
      exact (realm.holds_succ hstartedToo).mpr (.inl ih)

/-- A value whose closures were all created in scopes of a realm. -/
def Value.Within (realm : Realm) (count : Nat) (v : Value H) : Prop :=
  ∀ id ∈ v.captures, realm.holds count id

/-- A session in which no scope of a realm mentions a scope outside. -/
structure Session.Confined (realm : Realm) (s : Session H) : Prop where
  started : realm.floor ≤ s.scopeCount
  parents : ∀ id outer, realm.holds s.scopeCount id →
    s.forest.parent? id = some outer → realm.holds s.scopeCount outer
  values : ∀ id name v, realm.holds s.scopeCount id →
    s.forest.get? id name = some v → v.Within realm s.scopeCount

section Values

variable {realm : Realm} {count : Nat}

theorem Value.Within.mono {v : Value H} {more : Nat}
    (hstarted : realm.floor ≤ count) (hle : count ≤ more)
    (hwithin : v.Within realm count) : v.Within realm more :=
  fun id hmem => realm.holds_mono hstarted hle (hwithin id hmem)

theorem Value.within_pair {id : ObjectId} {car cdr : Value H}
    {place : Option Location} :
    (Value.pair id car cdr place).Within realm count ↔
      car.Within realm count ∧ cdr.Within realm count := by
  simp only [Within, captures, List.mem_append, or_imp, forall_and]

theorem Value.within_closure {id : ObjectId} {params : List String}
    {body : Value H} {scope : ScopeId} :
    (Value.closure id params body scope).Within realm count ↔
      realm.holds count scope ∧ body.Within realm count := by
  simp only [Within, captures, List.forall_mem_cons]

theorem Value.within_expander {id : ObjectId} {params : List String}
    {body : Value H} :
    (Value.expander id params body).Within realm count ↔
      body.Within realm count := Iff.rfl

theorem Value.within_of_isPlain {v : Value H} (hflat : v.isPlain = true) :
    v.Within realm count := by
  cases v with
  | nil | bool | int | big | float | str => exact fun _ hmem => nomatch hmem
  | _ => cases hflat

theorem Value.within_hereditary :
    Value.Hereditary fun v : Value H => v.Within realm count where
  plain _ hflat := within_of_isPlain hflat
  pair _ _ _ _ := within_pair

theorem Value.Within.items {v : Value H} {items : List (Value H)}
    (hwithin : v.Within realm count) (hproper : v.items? = some items) :
    ∀ item ∈ items, item.Within realm count :=
  within_hereditary.items hwithin hproper

theorem Value.Within.substituteFrom {body : Value H} {params : List String}
    {arguments : Bindings (Value H)} {scope : ScopeId}
    (hwithin : body.Within realm count)
    (hheld : ∀ name v, arguments.get? name = some v → v.Within realm count)
    (index : Nat) :
    (body.substituteFrom params arguments scope index).1.Within realm count :=
  within_hereditary.substituteFrom hwithin hheld index

theorem Made.within {scope : ScopeId} {values forms : List (Value H)}
    {v : Value H} (hmade : Made scope values forms v)
    (hhere : realm.holds count scope)
    (hvaluesWithin : ∀ v ∈ values, v.Within realm count)
    (hformsWithin : ∀ v ∈ forms, v.Within realm count) :
    v.Within realm count := by
  refine hmade.holds Value.within_hereditary hvaluesWithin hformsWithin ?_ ?_
  · exact fun _ _ body _ hgiven =>
      Value.within_closure.mpr ⟨hhere, hformsWithin body hgiven⟩
  · exact fun _ _ body _ hgiven =>
      Value.within_expander.mpr (hformsWithin body hgiven)

end Values

/-- One elementary change of a session that stays in a realm. -/
inductive Move (realm : Realm) (s : Session H) : Session H → Prop where
  | logs (entry : LogEntry) : Move realm s { s with log := s.log.push entry }
  | numbers : Move realm s { s with batches := s.batches + 1 }
  | displays (line : String) : Move realm s (s.displayed line)
  | binds {scope : ScopeId} (name : String) {value : Value H}
      (htarget : realm.holds s.scopeCount scope)
      (hheld : value.Within realm s.scopeCount) :
      Move realm s (s.bind scope name value)
  | opens {bindings : Bindings (Value H)} {parent : ScopeId}
      (haround : realm.holds s.scopeCount parent)
      (hheld : ∀ name v, bindings.get? name = some v →
        v.Within realm s.scopeCount) :
      Move realm s (s.openScope ⟨bindings, some parent⟩)

/-- Elementary changes one after another, all in a realm. -/
abbrev Moves (realm : Realm) : Session H → Session H → Prop :=
  Relation.ReflTransGen (Move realm)

section Moves

variable {realm : Realm} {s t : Session H}

theorem Move.atDepth (hmove : Move realm s t) (depth : Nat) :
    Move realm (s.atDepth depth) (t.atDepth depth) := by
  cases hmove with
  | logs entry => exact .logs entry
  | numbers => exact .numbers
  | displays line => exact .displays line
  | binds name htarget hheld => exact .binds name htarget hheld
  | opens haround hheld => exact .opens haround hheld

theorem Moves.atDepth (hmoves : Moves realm s t) (depth : Nat) :
    Moves realm (s.atDepth depth) (t.atDepth depth) :=
  hmoves.lift (fun s : Session H => s.atDepth depth)
    fun _ _ hmove => hmove.atDepth depth

theorem Move.change (hmove : Move realm s t) : Change s t := by
  cases hmove with
  | logs entry => exact .logs entry
  | numbers => exact .numbers
  | displays line => exact .displays line
  | binds name _ _ => exact .binds _ name _
  | opens _ _ => exact .opens _ _

theorem Moves.changes (hmoves : Moves realm s t) : Changes s t :=
  Relation.ReflTransGen.mono (fun _ _ => Move.change) _ _ hmoves

theorem Moves.record (s : Session H) (event : Event H) :
    Moves realm s (s.record event) := by
  unfold Session.record
  split
  · exact .single (.logs event.entry)
  · exact .refl

@[simp] theorem Session.scopeCount_bind (s : Session H) (scope : ScopeId)
    (name : String) (value : Value H) :
    (s.bind scope name value).scopeCount = s.scopeCount :=
  Forest.size_set ..

@[simp] theorem Session.scopeCount_openScope (s : Session H)
    (scope : Scope H) : (s.openScope scope).scopeCount = s.scopeCount + 1 :=
  Forest.size_push ..

@[simp] theorem Session.scopeCount_record (s : Session H) (event : Event H) :
    (s.record event).scopeCount = s.scopeCount := by
  simp only [scopeCount, record]
  split <;> rfl

theorem Move.scopeCount_le (hmove : Move realm s t) :
    s.scopeCount ≤ t.scopeCount := by
  cases hmove with
  | logs | numbers | displays => exact Nat.le_refl _
  | binds => exact Nat.le_of_eq (s.scopeCount_bind ..).symm
  | opens =>
      rw [s.scopeCount_openScope]
      exact Nat.le_succ _

theorem Moves.scopeCount_le (hmoves : Moves realm s t) :
    s.scopeCount ≤ t.scopeCount := by
  induction hmoves with
  | refl => exact Nat.le_refl _
  | tail _ hmove ih => exact Nat.le_trans ih hmove.scopeCount_le

/-- A move in a realm keeps the session confined to it. -/
theorem Move.confined (hmove : Move realm s t) (hconfined : s.Confined realm) :
    t.Confined realm := by
  cases hmove with
  | logs | numbers | displays =>
      exact ⟨hconfined.started, hconfined.parents, hconfined.values⟩
  | @binds scope name value htarget hheld =>
      refine ⟨?_, ?_, ?_⟩ <;> simp only [Session.scopeCount_bind]
      · exact hconfined.started
      · intro id outer hinside haround
        rw [Session.bind, Forest.parent?_set] at haround
        exact hconfined.parents id outer hinside haround
      · intro id key v hinside hfound
        simp only [Session.bind, Forest.get?_set] at hfound
        split at hfound
        · cases hfound
          exact hheld
        · exact hconfined.values id key v hinside hfound
  | @opens bindings parent haround hheld =>
      have hstarted := hconfined.started
      have hgrows : s.scopeCount ≤ s.scopeCount + 1 := Nat.le_succ _
      refine ⟨?_, ?_, ?_⟩ <;> simp only [Session.scopeCount_openScope]
      · exact Nat.le_trans hstarted hgrows
      · intro id outer hinside hfound
        rw [Session.openScope, Forest.parent?_push] at hfound
        apply realm.holds_mono hstarted hgrows
        split at hfound
        · cases hfound
          exact haround
        · next hold =>
            rcases (realm.holds_succ hstarted).mp hinside with hinside | hnew
            · exact hconfined.parents id outer hinside hfound
            · exact absurd (congrArg ScopeId.index hnew) hold
      · intro id name v hinside hfound
        rw [Session.openScope, Forest.get?_push] at hfound
        apply Value.Within.mono hstarted hgrows
        split at hfound
        · exact hheld name v hfound
        · next hold =>
            rcases (realm.holds_succ hstarted).mp hinside with hinside | hnew
            · exact hconfined.values id name v hinside hfound
            · exact absurd (congrArg ScopeId.index hnew) hold

theorem Moves.confined (hmoves : Moves realm s t)
    (hconfined : s.Confined realm) : t.Confined realm := by
  induction hmoves with
  | refl => exact hconfined
  | tail _ hmove ih => exact hmove.confined ih

end Moves

/-- A task that mentions only scopes of a realm. -/
def Task.Within (realm : Realm) (count : Nat) : Task H → Prop
  | .evaluate form scope | .value form scope =>
      form.Within realm count ∧ realm.holds count scope
  | .call operator operands scope _ =>
      (∀ v ∈ operator :: operands, v.Within realm count) ∧
        realm.holds count scope
  | .arguments operator done rest scope _ =>
      (∀ v ∈ operator :: (done ++ rest), v.Within realm count) ∧
        realm.holds count scope
  | .sequence forms scope _ =>
      (∀ v ∈ forms, v.Within realm count) ∧ realm.holds count scope

/-- An answer that mentions only scopes of a realm. -/
def WithinAnswer (realm : Realm) (count : Nat) : Answer H → Prop
  | .ok value => value.Within realm count
  | .error _ => True

/-- What comes of a task in a realm: moves in the realm, and an answer from
it. -/
structure Stays (realm : Realm) (s : Session H) (answer : Answer H)
    (t : Session H) : Prop where
  moves : Moves realm s t
  answer : WithinAnswer realm t.scopeCount answer

theorem Session.Confined.lookup {realm : Realm} {s : Session H}
    (hconfined : s.Confined realm) {scope : ScopeId} {name : String}
    {v : Value H} (hhere : realm.holds s.scopeCount scope)
    (hfound : s.forest.lookup scope name = some v) :
    v.Within realm s.scopeCount := by
  obtain ⟨owner, hmem, hfound⟩ := List.exists_of_findSome?_eq_some hfound
  have hinside := s.forest.forall_mem_chain hconfined.parents hhere owner hmem
  exact hconfined.values owner name v hinside hfound

theorem Session.Confined.owner {realm : Realm} {s : Session H}
    (hconfined : s.Confined realm) {scope owner : ScopeId} {name : String}
    (hhere : realm.holds s.scopeCount scope)
    (hfound : s.forest.owner? scope name = some owner) :
    realm.holds s.scopeCount owner :=
  s.forest.forall_mem_chain hconfined.parents hhere owner
    (List.mem_of_find?_eq_some hfound)

/-- A work in a scope of a realm, on values and forms from the realm, stays in
the realm. -/
theorem Worked.moves {realm : Realm} {scope : ScopeId}
    {values forms : List (Value H)} {s t : Session H}
    (hworked : Worked scope values forms s t)
    (hhere : realm.holds s.scopeCount scope)
    (hmade : ∀ v, Made scope values forms v → v.Within realm s.scopeCount) :
    Moves realm s t := by
  cases hworked with
  | same => exact .refl
  | numbered => exact .single .numbers
  | displayed line => exact .single (.displays line)
  | @named name value hbuilt =>
      have hcount := s.scopeCount_record (.macroDefined name)
      have hlogged : Moves realm s (s.record (.macroDefined name)) := .record s _
      refine (hlogged.tail .numbers).tail (.binds name ?_ ?_)
      · exact hcount.symm ▸ hhere
      · exact hcount.symm ▸ hmade value hbuilt

section Stays

variable {realm : Realm} {s mid t : Session H} {answer : Answer H}

theorem Stays.trans {first : Answer H} (hbefore : Stays realm s first mid)
    (hafter : Stays realm mid answer t) : Stays realm s answer t :=
  ⟨hbefore.moves.trans hafter.moves, hafter.answer⟩

/-- What was in the realm before some moves still is after them. -/
theorem Stays.holds (hstays : Stays realm s answer t)
    (hconfined : s.Confined realm) {id : ScopeId}
    (hinside : realm.holds s.scopeCount id) : realm.holds t.scopeCount id :=
  realm.holds_mono hconfined.started hstays.moves.scopeCount_le hinside

theorem Stays.within (hstays : Stays realm s answer t)
    (hconfined : s.Confined realm) {v : Value H}
    (hwithin : v.Within realm s.scopeCount) : v.Within realm t.scopeCount :=
  hwithin.mono hconfined.started hstays.moves.scopeCount_le

theorem Builtin.made_within {op : Builtin} {operands : List (Value H)}
    {scope : ScopeId} (hhere : realm.holds s.scopeCount scope)
    (hheld : ∀ v ∈ operands, v.Within realm s.scopeCount) (v : Value H)
    (hmade : Made scope (op.values operands) (op.forms operands) v) :
    v.Within realm s.scopeCount :=
  hmade.within hhere (fun v hmem => hheld v (mem_of_mem_values hmem))
    fun v hmem => hheld v (mem_of_mem_forms hmem)

/-- A builtin that has nothing evaluated stays in the realm of its scope and
its operands. -/
theorem stays_of_value {op : Builtin} {operands : List (Value H)}
    {scope : ScopeId} {value : Value H} (hconfined : s.Confined realm)
    (hinert : op.evaluates = false)
    (hresult : op.alone operands scope s = .value (.done value) t)
    (hhere : realm.holds s.scopeCount scope)
    (hheld : ∀ v ∈ operands, v.Within realm s.scopeCount) :
    Stays realm s (.ok value) t := by
  obtain ⟨hmade, hworked⟩ := Builtin.alone_value hinert hresult
  have hmoves := hworked.moves hhere (Builtin.made_within hhere hheld)
  have hwithin := Builtin.made_within hhere hheld value hmade
  exact ⟨hmoves, hwithin.mono hconfined.started hmoves.scopeCount_le⟩

theorem stays_of_fault {op : Builtin} {operands : List (Value H)}
    {scope : ScopeId} {fault blamed : Fault} (hinert : op.evaluates = false)
    (hresult : op.alone operands scope s = .fault fault t)
    (hhere : realm.holds s.scopeCount scope)
    (hheld : ∀ v ∈ operands, v.Within realm s.scopeCount) :
    Stays realm s (.error blamed) t := by
  obtain ⟨-, hworked⟩ := Builtin.alone_fault hinert hresult
  exact ⟨hworked.moves hhere (Builtin.made_within hhere hheld), trivial⟩

/-- Opening a scope for arguments from the realm, inside a scope of it. -/
theorem Move.opensFor {arguments : List (Value H)} {parent : ScopeId}
    (params : List String) (haround : realm.holds s.scopeCount parent)
    (hheld : ∀ v ∈ arguments, v.Within realm s.scopeCount) :
    Move realm s (s.openScope ⟨.ofLists params arguments, some parent⟩) :=
  .opens haround fun _ v hfound => hheld v (Bindings.mem_of_get?_ofLists hfound)

end Stays

/-- Whatever a task comes to, it does not leave a realm that the session and
the task are confined to. -/
theorem BigStep.stays {realm : Realm} {peak : Nat} {task : Task H}
    {s t : Session H} {answer : Answer H}
    (hderived : BigStep peak task s answer t) (hconfined : s.Confined realm)
    (hwithin : task.Within realm s.scopeCount) : Stays realm s answer t := by
  induction hderived with
  | tooDeep => exact ⟨.record _ _, trivial⟩
  | @deeper _ _ _ s _ t _ hinside ih =>
      have hstays := ih ⟨hconfined.started, hconfined.parents, hconfined.values⟩
        hwithin
      have hdepth : t.depth - 1 = s.depth := by
        rw [hinside.depth_eq]
        exact Nat.add_sub_cancel _ _
      rw [hdepth]
      exact ⟨hstays.moves.atDepth s.depth, hstays.answer⟩
  | literal => exact ⟨.refl, hwithin.1⟩
  | bound hfound => exact ⟨.refl, hconfined.lookup hwithin.2 hfound⟩
  | unbound | dotted | refused | miscounted | nameless | unassignable =>
      exact ⟨.refl, trivial⟩
  | nothing => exact ⟨.refl, Value.within_of_isPlain rfl⟩
  | headFails hshape _ _ ih =>
      subst hshape
      have hhead := (Value.within_pair.mp hwithin.1).1
      exact ⟨(ih hconfined ⟨hhead, hwithin.2⟩).moves, trivial⟩
  | application hshape hproper _ _ ih₁ ih₂ =>
      subst hshape
      obtain ⟨hhead, hrest⟩ := Value.within_pair.mp hwithin.1
      have hfirst := ih₁ hconfined ⟨hhead, hwithin.2⟩
      have hoperands := hrest.items hproper
      refine hfirst.trans (ih₂ (hfirst.moves.confined hconfined) ⟨?_, ?_⟩)
      · refine List.forall_mem_cons.mpr ⟨hfirst.answer, fun v hmem => ?_⟩
        exact hfirst.within hconfined (hoperands v hmem)
      · exact hfirst.holds hconfined hwithin.2
  | operands _ _ _ ih => exact ih hconfined hwithin
  | operandFails _ ih =>
      have hstays := ih hconfined ⟨hwithin.1 _ (by simp), hwithin.2⟩
      exact ⟨hstays.moves, trivial⟩
  | @operand _ _ operator done form rest _ _ _ value _ _ _ _ _ ih₁ ih₂ =>
      have hfirst := ih₁ hconfined ⟨hwithin.1 form (by simp), hwithin.2⟩
      refine hfirst.trans (ih₂ (hfirst.moves.confined hconfined) ⟨?_, ?_⟩)
      · intro v hmem
        simp only [List.mem_cons, List.mem_append, List.not_mem_nil,
          or_false] at hmem
        have hgiven : v ∈ operator :: (done ++ form :: rest) ∨ v = value := by
          grind
        rcases hgiven with hgiven | rfl
        · exact hfirst.within hconfined (hwithin.1 v hgiven)
        · exact hfirst.answer
      · exact hfirst.holds hconfined hwithin.2
  | function heager hresult =>
      refine stays_of_value hconfined (Builtin.evaluates_eq_false heager) hresult
        hwithin.2 fun v hmem => hwithin.1 v ?_
      simpa using .inr hmem
  | functionFails heager hresult =>
      refine stays_of_fault (Builtin.evaluates_eq_false heager) hresult
        hwithin.2 fun v hmem => hwithin.1 v ?_
      simpa using .inr hmem
  | @body _ _ params _ _ arguments _ _ s _ _ hagree hinside ih =>
      obtain ⟨hclosure, harguments⟩ := List.forall_mem_cons.mp hwithin.1
      obtain ⟨hcaptured, hbody⟩ := Value.within_closure.mp hclosure
      have hopened := Move.opensFor params hcaptured (by simpa using harguments)
      have hnew := (realm.holds_succ hconfined.started).mpr (.inr rfl)
      have hstays := ih (hopened.confined hconfined) ⟨?_, ?_⟩
      · exact ⟨.head hopened hstays.moves, hstays.answer⟩
      · exact hbody.mono hconfined.started hopened.scopeCount_le
      · rw [Session.scopeCount_openScope]
        exact hnew
  | @expansion _ _ params _ arguments _ _ s expanded _ _ hcopied _ ih =>
      obtain ⟨htemplate, hgiven⟩ := List.forall_mem_cons.mp hwithin.1
      have hheld : ∀ v ∈ arguments, v.Within realm s.scopeCount := by
        simpa using hgiven
      have hopened := Move.opensFor params hwithin.2 hheld
      have hlogged := (Relation.ReflTransGen.single hopened).trans
        (Moves.record _ (.expanded expanded))
      have hgrown := Moves.scopeCount_le hlogged
      have hstays := ih (Moves.confined hlogged hconfined) ⟨?_, ?_⟩
      · exact ⟨hlogged.trans hstays.moves, hstays.answer⟩
      · subst hcopied
        refine Value.Within.mono hconfined.started hgrown ?_
        exact (Value.within_expander.mp htemplate).substituteFrom
          (fun _ v hfound => hheld v (Bindings.mem_of_get?_ofLists hfound)) 0
      · exact realm.holds_mono hconfined.started hgrown hwithin.2
  | direct _ _ hinert hresult =>
      exact stays_of_value hconfined hinert hresult hwithin.2 fun v hmem =>
        hwithin.1 v (List.mem_cons_of_mem _ hmem)
  | directFails _ _ hinert hresult =>
      exact stays_of_fault hinert hresult hwithin.2 fun v hmem =>
        hwithin.1 v (List.mem_cons_of_mem _ hmem)
  | conditionFails _ ih | conditionRefused _ _ ih | effectFails _ ih
  | definitionFails _ ih | assignmentFails _ _ ih =>
      have hstays := ih hconfined ⟨hwithin.1 _ (by simp), hwithin.2⟩
      exact ⟨hstays.moves, trivial⟩
  | @branch _ _ _ _ _ _ _ _ b _ _ _ _ _ ih₁ ih₂ =>
      have hfirst := ih₁ hconfined ⟨hwithin.1 _ (by simp), hwithin.2⟩
      refine hfirst.trans (ih₂ (hfirst.moves.confined hconfined) ⟨?_, ?_⟩)
      · apply hfirst.within hconfined
        cases b <;> exact hwithin.1 _ (by simp)
      · exact hfirst.holds hconfined hwithin.2
  | begin _ ih =>
      exact ih hconfined ⟨(List.forall_mem_cons.mp hwithin.1).2, hwithin.2⟩
  | last _ ih => exact ih hconfined ⟨hwithin.1 _ (by simp), hwithin.2⟩
  | effect _ _ ih₁ ih₂ =>
      obtain ⟨hform, hrest⟩ := List.forall_mem_cons.mp hwithin.1
      have hfirst := ih₁ hconfined ⟨hform, hwithin.2⟩
      refine hfirst.trans (ih₂ (hfirst.moves.confined hconfined) ⟨?_, ?_⟩)
      · exact fun v hmem => hfirst.within hconfined (hrest v hmem)
      · exact hfirst.holds hconfined hwithin.2
  | definition _ ih =>
      have hfirst := ih hconfined ⟨hwithin.1 _ (by simp), hwithin.2⟩
      have hvalue := hfirst.answer
      have hhere := hfirst.holds hconfined hwithin.2
      refine ⟨(hfirst.moves.trans (Moves.record _ _)).tail (.binds _ ?_ ?_),
        Value.within_of_isPlain rfl⟩
      · rwa [Session.scopeCount_record]
      · rwa [Session.scopeCount_record]
  | assignment hfound _ ih =>
      have hfirst := ih hconfined ⟨hwithin.1 _ (by simp), hwithin.2⟩
      have hhere := hfirst.holds hconfined (hconfined.owner hwithin.2 hfound)
      exact ⟨hfirst.moves.tail (.binds _ hhere hfirst.answer),
        Value.within_of_isPlain rfl⟩

end Lisp
