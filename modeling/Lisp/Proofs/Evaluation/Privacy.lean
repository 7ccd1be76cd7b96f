import Lisp.Proofs.Evaluation.Discipline

/-!
Private scopes.  A scope that cannot be reached from a form and the scope it is
evaluated in is left as it was, and evaluation finds no way to it: neither the
value nor any scope that evaluation could reach or has opened leads there.
-/

namespace Lisp

variable {H : Type}

/-- One link between scopes: to the scope around, or to one in which a closure
inside a bound value was created. -/
inductive Forest.Leads (forest : Forest H) (id : ScopeId) : ScopeId → Prop where
  | outwards {outer : ScopeId} (haround : forest.parent? id = some outer) :
      Leads forest id outer
  | through {name : String} {value : Value H} {captured : ScopeId}
      (hbound : forest.get? id name = some value)
      (hheld : captured ∈ value.captures) : Leads forest id captured

/-- Whether links lead from one scope to another. -/
def Forest.Reaches (forest : Forest H) : ScopeId → ScopeId → Prop :=
  Relation.ReflTransGen forest.Leads

/-- Whether a scope can be reached from a closure in a value. -/
def Forest.ReachesFrom (forest : Forest H) (v : Value H) (id : ScopeId) :
    Prop :=
  ∃ captured ∈ v.captures, forest.Reaches captured id

/-- Whether a scope can be reached from a form evaluated in `scope`. -/
def Forest.Reachable (forest : Forest H) (form : Value H) (scope id : ScopeId) :
    Prop :=
  forest.ReachesFrom form id ∨ forest.Reaches scope id

theorem Forest.Reachable.tail {forest : Forest H} {form : Value H}
    {scope id other : ScopeId} (hreached : forest.Reachable form scope id)
    (hlink : forest.Leads id other) : forest.Reachable form scope other := by
  rcases hreached with ⟨captured, hheld, hpath⟩ | hpath
  · exact .inl ⟨captured, hheld, .tail hpath hlink⟩
  · exact .inr (.tail hpath hlink)

/-- A set of old scopes and all scopes from number `start` on. -/
def Realm.beyond (reached : ScopeId → Prop) (start : Nat) : Realm where
  holds _ id := reached id ∨ start ≤ id.index
  floor := start
  holds_succ := by
    intro count id hstarted
    constructor
    · exact .inl
    · rintro (hinside | rfl)
      · exact hinside
      · exact .inr hstarted

/-- What can be reached, together with what is yet to be opened, keeps to
itself. -/
theorem Session.confined_beyond (s : Session H) (form : Value H)
    (scope : ScopeId) :
    s.Confined (.beyond (s.forest.Reachable form scope) s.scopeCount) := by
  refine ⟨Nat.le_refl _, ?_, ?_⟩
  · intro id outer hinside haround
    rcases hinside with hreached | hnew
    · exact .inl (hreached.tail (.outwards haround))
    · rw [s.forest.parent?_of_le hnew] at haround
      cases haround
  · intro id name v hinside hfound captured hheld
    rcases hinside with hreached | hnew
    · exact .inl (hreached.tail (.through hfound hheld))
    · rw [s.forest.get?_of_le hnew] at hfound
      cases hfound

/-- In a confined session links lead nowhere outside the realm. -/
theorem Session.Confined.reaches {realm : Realm} {s : Session H}
    (hconfined : s.Confined realm) {id other : ScopeId}
    (hinside : realm.holds s.scopeCount id)
    (hpath : s.forest.Reaches id other) : realm.holds s.scopeCount other := by
  induction hpath with
  | refl => exact hinside
  | tail _ hlink ih =>
      cases hlink with
      | outwards haround => exact hconfined.parents _ _ ih haround
      | through hfound hheld => exact hconfined.values _ _ _ ih hfound _ hheld

/-- Moves in a realm leave the scopes outside it as they were. -/
theorem Moves.bindings_eq {realm : Realm} {s t : Session H}
    (hmoves : Moves realm s t) {hidden : ScopeId}
    (hold : hidden.index < s.scopeCount)
    (houtside : ∀ count, ¬ realm.holds count hidden) :
    t.forest.bindings hidden = s.forest.bindings hidden := by
  induction hmoves with
  | refl => rfl
  | @tail mid _ hbefore hmove ih =>
      have hstillOld : hidden.index < mid.scopeCount :=
        Nat.lt_of_lt_of_le hold (Moves.scopeCount_le hbefore)
      rw [← ih]
      cases hmove with
      | logs | numbers | displays => rfl
      | @binds scope name value htarget hheld =>
          have hdiffer : hidden ≠ scope := by
            rintro rfl
            exact houtside _ htarget
          exact mid.forest.bindings_set_of_ne hdiffer name value
      | opens => exact mid.forest.bindings_push_of_lt hstillOld _

/-- Private state stays private.  Take a scope that existed before an
evaluation and could not be reached from its form and its scope.  However the
evaluation ends, the scope has the same bindings as before, and it can be
reached neither from the value nor from any scope that could be reached before
or was opened on the way. -/
theorem private_scope_untouched (form : Value Empty) (scope : ScopeId)
    (s : Session Empty) (answer : Answer Empty) (t : Session Empty)
    (hends : Evaluates form scope s answer t) (hidden : ScopeId)
    (hold : hidden.index < s.scopeCount)
    (hapart : ¬ s.forest.Reachable form scope hidden) :
    t.forest.bindings hidden = s.forest.bindings hidden ∧
    (∀ value, answer = .ok value → ¬ t.forest.ReachesFrom value hidden) ∧
    ∀ id, s.forest.Reachable form scope id ∨
        (s.scopeCount ≤ id.index ∧ id.index < t.scopeCount) →
      ¬ t.forest.Reaches id hidden := by
  obtain ⟨_, hderived⟩ := hends.bigStep
  let realm := Realm.beyond (s.forest.Reachable form scope) s.scopeCount
  have houtside : ∀ count, ¬ realm.holds count hidden := by
    rintro count (hreached | hnew)
    · exact hapart hreached
    · exact Nat.not_le_of_lt hold hnew
  have hwithin : (Task.evaluate form scope).Within realm s.scopeCount :=
    ⟨fun captured hheld => .inl (.inl ⟨captured, hheld, .refl⟩),
      .inl (.inr .refl)⟩
  have hconfined := s.confined_beyond form scope
  have hstays := hderived.stays hconfined hwithin
  have hconfinedAfter := Moves.confined hstays.moves hconfined
  refine ⟨Moves.bindings_eq hstays.moves hold houtside, ?_, ?_⟩
  · rintro value rfl ⟨captured, hheld, hpath⟩
    exact houtside _ (hconfinedAfter.reaches (hstays.answer captured hheld) hpath)
  · intro source hknown hpath
    have hinside : realm.holds t.scopeCount source := hknown.imp_right And.left
    exact houtside _ (hconfinedAfter.reaches hinside hpath)

/-- A root scope as it is at first, and a scope inside it that nothing leads
to. -/
def sampleRooms : Session Empty :=
  (Session.fresh 8 {} false).openScope ⟨.ofLists ["n"] [.int 0], some ⟨0⟩⟩

/-- `(define k ((lambda (n) (set! n 7)) 5))`, with the builtins themselves as
heads. -/
def sampleVisit : Value Empty :=
  .list 0 [.native (.builtin .define), .ref "k" none,
    .list 1 [.list 2 [.native (.builtin .lambda), .list 3 [.ref "n" none],
      .list 4 [.native (.builtin .assign), .ref "n" none, .int 7]], .int 5]]

theorem sampleRooms_apart :
    ¬ sampleRooms.forest.Reachable sampleVisit ⟨0⟩ ⟨1⟩ := by
  have hblind : ∀ id, ¬ sampleRooms.forest.Leads ⟨0⟩ id := by
    intro id hlink
    cases hlink with
    | outwards haround =>
        simp [sampleRooms, Session.openScope, Session.fresh,
          Forest.parent?_push, Forest.empty] at haround
    | @through name value _ hfound hheld =>
        simp only [sampleRooms, Session.openScope, Session.fresh,
          Forest.get?_push, Forest.size_push, Forest.empty] at hfound
        have hold : initialBindings.get? name = some value := by
          simpa using hfound
        rcases initialBindings_cases hold with ⟨op, rfl⟩ | rfl <;> cases hheld
  rintro (⟨captured, hheld, -⟩ | hpath)
  · simp [sampleVisit, Value.list, Value.listFrom, Value.captures] at hheld
  · rcases hpath.cases_head with hsame | ⟨id, hlink, -⟩
    · cases hsame
    · exact hblind id hlink

theorem sampleRooms_untouched :
    ∃ answer t, Evaluates sampleVisit ⟨0⟩ sampleRooms answer t ∧
      t.forest.bindings ⟨1⟩ = sampleRooms.forest.bindings ⟨1⟩ ∧
      ¬ t.forest.Reaches ⟨0⟩ ⟨1⟩ := by
  have hsettled :
      (evaluate 9 sampleVisit ⟨0⟩ sampleRooms).session?.isSome = true := by
    cbv
  obtain ⟨t, hafter⟩ := Option.isSome_iff_exists.mp hsettled
  obtain ⟨answer, hends⟩ := Evaluates.of_session? hafter
  have hheld := private_scope_untouched sampleVisit ⟨0⟩ sampleRooms answer t hends
    ⟨1⟩ Nat.one_lt_two sampleRooms_apart
  exact ⟨answer, t, hends, hheld.1, hheld.2.2 ⟨0⟩ (.inl (.inr .refl))⟩

end Lisp
