import Lisp.Proofs.Evaluation.Adequacy
import Lisp.Proofs.Evaluation.Confinement
import Mathlib

/-!
What a session can rely on.  Whatever it is asked to do and however that ends,
the depth is back where it was, no scope is lost or moved, no name is lost, and
nothing displayed is taken back.  If all scopes that are mentioned exist, this
stays so, and every new scope lies inside an older one.
-/

namespace Lisp

variable {H : Type}

/-- Whether there is a scope with a given number. -/
def Session.Has (s : Session H) (id : ScopeId) : Prop :=
  id.index < s.scopeCount

theorem Session.has_of_isSome_get? {s : Session H} {id : ScopeId}
    {name : String} (hbound : (s.forest.get? id name).isSome) : s.Has id := by
  by_contra hmissing
  rw [s.forest.get?_of_le (Nat.le_of_not_lt hmissing)] at hbound
  cases hbound

/-- What is kept from one session to a later one. -/
structure Session.Keeps (s t : Session H) : Prop where
  depth : t.depth = s.depth
  scopes : ∀ id, s.Has id →
    t.Has id ∧ t.forest.parent? id = s.forest.parent? id
  names : ∀ id name, s.Has id → (s.forest.get? id name).isSome →
    (t.forest.get? id name).isSome
  output : ∃ more, t.output = s.output ++ more

section Keeps

variable {s mid t : Session H}

theorem Session.Keeps.refl (s : Session H) : s.Keeps s where
  depth := rfl
  scopes _ hexist := ⟨hexist, rfl⟩
  names _ _ _ hbound := hbound
  output := ⟨"", String.append_empty.symm⟩

theorem Session.Keeps.trans (hfirst : s.Keeps mid) (hlater : mid.Keeps t) :
    s.Keeps t where
  depth := hlater.depth.trans hfirst.depth
  scopes := by
    intro id hexist
    obtain ⟨hstill, hsame⟩ := hfirst.scopes id hexist
    obtain ⟨hatLast, hsameToo⟩ := hlater.scopes id hstill
    exact ⟨hatLast, hsameToo.trans hsame⟩
  names := by
    intro id name hexist hbound
    have hstill := (hfirst.scopes id hexist).1
    exact hlater.names id name hstill (hfirst.names id name hexist hbound)
  output := by
    obtain ⟨more, hwritten⟩ := hfirst.output
    obtain ⟨rest, hwrittenToo⟩ := hlater.output
    exact ⟨more ++ rest, by rw [hwrittenToo, hwritten, String.append_assoc]⟩

theorem Change.keeps (hchange : Change s t) : s.Keeps t := by
  cases hchange with
  | logs | numbers => exact { Session.Keeps.refl s with }
  | displays line => exact { Session.Keeps.refl s with output := ⟨_, rfl⟩ }
  | binds scope name value =>
      refine { Session.Keeps.refl s with scopes := ?_, names := ?_ }
      · intro id hexist
        exact ⟨Nat.lt_of_lt_of_eq hexist (s.scopeCount_bind ..).symm,
          s.forest.parent?_set ..⟩
      · intro id key hexist hbound
        rw [Session.bind, Forest.get?_set]
        split
        · rfl
        · exact hbound
  | opens bindings parent =>
      refine { Session.Keeps.refl s with scopes := ?_, names := ?_ }
      · intro id hexist
        constructor
        · exact Nat.lt_of_lt_of_le hexist
            (Nat.le_of_lt (Nat.lt_of_lt_of_eq (Nat.lt_succ_self _)
              (s.scopeCount_openScope _).symm))
        · rw [Session.openScope, Forest.parent?_push]
          exact if_neg (Nat.ne_of_lt hexist)
      · intro id name hexist hbound
        have hold : ¬ id.index = s.forest.scopes.size := Nat.ne_of_lt hexist
        rwa [Session.openScope, Forest.get?_push, if_neg hold]

theorem Changes.keeps (hchanges : Changes s t) : s.Keeps t := by
  induction hchanges with
  | refl => exact .refl s
  | tail _ hchange ih => exact ih.trans hchange.keeps

theorem Session.Keeps.chain_eq (hkeeps : s.Keeps t) {id : ScopeId}
    (hexist : s.Has id) : t.forest.chain id = s.forest.chain id := by
  induction hbound : id.index using Nat.strong_induction_on generalizing id with
  | _ bound ih =>
      rw [t.forest.chain_eq, s.forest.chain_eq, (hkeeps.scopes id hexist).2]
      cases s.forest.parent? id with
      | none => rfl
      | some outer =>
          by_cases holder : outer.index < id.index
          · have houterExists : s.Has outer := Nat.lt_trans holder hexist
            have hsame := ih outer.index (hbound ▸ holder) houterExists rfl
            simp only [holder, if_true, hsame]
          · simp only [holder, if_false]

theorem Forest.isSome_lookup_iff (forest : Forest H) (id : ScopeId)
    (name : String) :
    (forest.lookup id name).isSome ↔
      ∃ scope ∈ forest.chain id, (forest.get? scope name).isSome :=
  List.findSome?_isSome_iff

/-- A name that could be looked up before still can be. -/
theorem Session.Keeps.lookup (hkeeps : s.Keeps t) {id : ScopeId}
    {name : String} (hvisible : (s.forest.lookup id name).isSome) :
    (t.forest.lookup id name).isSome := by
  rw [Forest.isSome_lookup_iff] at hvisible ⊢
  obtain ⟨scope, hmem, hbound⟩ := hvisible
  have hhere : s.Has scope := Session.has_of_isSome_get? hbound
  refine ⟨scope, ?_, hkeeps.names scope name hhere hbound⟩
  by_cases hexist : s.Has id
  · rwa [hkeeps.chain_eq hexist]
  · -- A scope that is missing has no chain but itself.
    rw [s.forest.chain_eq, s.forest.parent?_of_le (Nat.le_of_not_lt hexist),
      List.mem_singleton] at hmem
    exact absurd (hmem ▸ hhere) hexist

end Keeps

/-- All scopes there can be. -/
def Realm.all : Realm where
  holds _ _ := True
  floor := 0
  holds_succ := by simp

/-- The scopes there are. -/
def Realm.existing : Realm where
  holds count id := id.index < count
  floor := 0
  holds_succ := by
    intro count id _
    rw [Nat.lt_succ_iff_lt_or_eq]
    refine or_congr Iff.rfl ⟨?_, ?_⟩
    · intro hsame
      cases id
      exact congrArg ScopeId.mk hsame
    · rintro rfl
      rfl

/-- A session in which every scope that is mentioned exists, and in which a
scope is younger than the scope around it. -/
structure Session.Grounded (s : Session H) : Prop where
  root : s.Has s.root
  older : ∀ id outer, s.forest.parent? id = some outer →
    outer.index < id.index
  captured : ∀ id name v, s.forest.get? id name = some v →
    ∀ scope ∈ v.captures, s.Has scope

section Grounded

variable {s t : Session H}

theorem Session.Grounded.confined (hgrounded : s.Grounded) :
    s.Confined .existing where
  started := Nat.zero_le _
  parents id outer hexist haround :=
    Nat.lt_trans (hgrounded.older id outer haround) hexist
  values id name v _ hfound := hgrounded.captured id name v hfound

/-- Where all scopes exist, going outwards comes to an end. -/
theorem Session.Grounded.wellFounded (hgrounded : s.Grounded) :
    WellFounded fun outer id => s.forest.parent? id = some outer :=
  Subrelation.wf (fun {outer id} haround => hgrounded.older id outer haround)
    (measure ScopeId.index).wf

theorem Move.older (hmove : Move .existing s t)
    (holder : ∀ id outer, s.forest.parent? id = some outer →
      outer.index < id.index) (id outer : ScopeId)
    (haround : t.forest.parent? id = some outer) : outer.index < id.index := by
  cases hmove with
  | logs | numbers | displays => exact holder id outer haround
  | binds =>
      rw [Session.bind, Forest.parent?_set] at haround
      exact holder id outer haround
  | opens hexist =>
      rw [Session.openScope, Forest.parent?_push] at haround
      split at haround
      · next hnew =>
          cases haround
          exact Nat.lt_of_lt_of_eq hexist hnew.symm
      · exact holder id outer haround

theorem Moves.grounded (hmoves : Moves .existing s t)
    (hgrounded : s.Grounded) : t.Grounded where
  root := by
    rw [hmoves.changes.root_eq]
    exact (hmoves.changes.keeps.scopes s.root hgrounded.root).1
  older := by
    induction hmoves with
    | refl => exact hgrounded.older
    | tail _ hmove ih => exact hmove.older ih
  captured := by
    intro id name v hfound
    have hconfined := Moves.confined hmoves hgrounded.confined
    have hexist : t.Has id := Session.has_of_isSome_get? (by rw [hfound]; rfl)
    exact hconfined.values id name v hexist hfound

/-- Every scope opened on the way has another around it. -/
theorem Changes.exists_parent (hchanges : Changes s t) {id : ScopeId}
    (hnew : ¬ s.Has id) (hexist : t.Has id) :
    ∃ outer, t.forest.parent? id = some outer := by
  induction hchanges with
  | refl => exact absurd hexist hnew
  | tail _ hchange ih =>
      cases hchange with
      | logs | numbers | displays => exact ih hexist
      | binds =>
          rw [Session.Has, Session.scopeCount_bind] at hexist
          rw [Session.bind, Forest.parent?_set]
          exact ih hexist
      | opens bindings parent =>
          rw [Session.Has, Session.scopeCount_openScope] at hexist
          rw [Session.openScope, Forest.parent?_push]
          split
          · exact ⟨parent, rfl⟩
          · next hdiffer =>
              exact ih (Nat.lt_of_le_of_ne (Nat.le_of_lt_succ hexist) hdiffer)

end Grounded

/-- An evaluation that leaves a session has an answer. -/
theorem Evaluates.of_session? {steps : Nat} {form : Value Empty}
    {scope : ScopeId} {s t : Session Empty}
    (hafter : (evaluate steps form scope s).session? = some t) :
    ∃ answer, Evaluates form scope s answer t := by
  cases hends : evaluate steps form scope s with
  | value result u =>
      rw [hends] at hafter
      cases hafter
      exact ⟨.ok result, steps, hends⟩
  | fault trouble u =>
      rw [hends] at hafter
      cases hafter
      exact ⟨.error trouble, steps, hends⟩
  | unfinished =>
      rw [hends] at hafter
      cases hafter

/-- Whether a computation, however it ends, only makes moves in a realm. -/
def Roams {α : Type} (realm : Realm) (s : Session H) (x : Eval H α) : Prop :=
  ∀ t, (x s).session? = some t → Moves realm s t

section Roams

variable {α β : Type} {realm : Realm}

theorem Roams.pure (s : Session H) (a : α) :
    Roams realm s (Pure.pure a : Eval H α) := by
  rintro t ⟨⟩
  exact .refl

theorem Roams.fail (s : Session H) (fault : Fault) :
    Roams realm s (Eval.fail fault : Eval H α) := by
  rintro t ⟨⟩
  exact .refl

theorem Roams.bind {s : Session H} {x : Eval H α} {next : α → Eval H β}
    (hfirst : Roams realm s x)
    (hlater : ∀ a mid, Moves realm s mid → Roams realm mid (next a)) :
    Roams realm s (x >>= next) := by
  intro t hafter
  rw [Eval.bind_apply] at hafter
  cases hends : x s with
  | value a mid =>
      rw [hends] at hafter
      have hmoves := hfirst mid (by rw [hends]; rfl)
      exact hmoves.trans (hlater a mid hmoves t hafter)
  | fault trouble mid =>
      rw [hends] at hafter
      exact hfirst t (by rw [hends]; exact hafter)
  | unfinished =>
      rw [hends] at hafter
      cases hafter

theorem Roams.evaluate (steps : Nat) {form : Value Empty} {scope : ScopeId}
    {s : Session Empty} (hconfined : s.Confined realm)
    (hwithin : form.Within realm s.scopeCount)
    (hhere : realm.holds s.scopeCount scope) :
    Roams realm s (Lisp.evaluate steps form scope) := by
  intro t hafter
  obtain ⟨answer, hends⟩ := Evaluates.of_session? hafter
  obtain ⟨peak, hderived⟩ := hends.bigStep
  exact (hderived.stays hconfined ⟨hwithin, hhere⟩).moves

theorem Roams.evaluateAll (steps : Nat) {forms : List (Value Empty)}
    {scope : ScopeId} {s : Session Empty} (hconfined : s.Confined realm)
    (hwithin : ∀ form ∈ forms, form.Within realm s.scopeCount)
    (hhere : realm.holds s.scopeCount scope) :
    Roams realm s (Lisp.evaluateAll (Lisp.evaluate steps) forms scope) := by
  unfold Lisp.evaluateAll
  induction forms generalizing s with
  | nil => exact .pure s []
  | cons form forms ih =>
      rw [List.mapM_cons]
      obtain ⟨hfirst, hrest⟩ := List.forall_mem_cons.mp hwithin
      refine .bind (.evaluate steps hconfined hfirst hhere) ?_
      intro value mid hmoves
      have hgrown := hmoves.scopeCount_le
      refine .bind (ih (hmoves.confined hconfined) ?_ ?_) ?_
      · exact fun other hmem => (hrest other hmem).mono hconfined.started hgrown
      · exact realm.holds_mono hconfined.started hgrown hhere
      · exact fun values last _ => .pure last _

theorem captures_label (batch : Nat) (form : Datum) (index : Nat) :
    (Value.label batch form index : Value H × Nat).1.captures = [] := by
  induction form generalizing index with
  | pair car cdr place ihCar ihCdr =>
      simp only [Value.label, Value.captures, ihCar, ihCdr, List.append_nil]
  | _ => rfl

theorem Roams.evaluateForms (steps : Nat) (forms : List Datum)
    {scope : ScopeId} {s : Session Empty} (hconfined : s.Confined realm)
    (hhere : realm.holds s.scopeCount scope) :
    Roams realm s (Lisp.evaluateForms steps scope forms) := by
  unfold Lisp.evaluateForms
  generalize (Value.nil : Value Empty) = start
  induction forms generalizing s start with
  | nil => exact .pure s start
  | cons form forms ih =>
      rw [List.foldlM_cons]
      refine .bind ?_ ?_
      · refine .bind ?_ ?_
        · rintro t ⟨⟩
          exact .single .numbers
        · intro batch mid hmoves
          refine .evaluate steps (hmoves.confined hconfined) ?_ ?_
          · intro captured hmem
            rw [Value.ofDatum, captures_label] at hmem
            cases hmem
          · exact realm.holds_mono hconfined.started hmoves.scopeCount_le hhere
      · intro value mid hmoves
        refine ih (hmoves.confined hconfined) ?_ value
        exact realm.holds_mono hconfined.started hmoves.scopeCount_le hhere

theorem Roams.evaluateSource (steps : Nat) (source file : String)
    {s : Session Empty} (hconfined : s.Confined realm)
    (hhere : realm.holds s.scopeCount s.root) :
    Roams realm s (Lisp.evaluateSource steps source file) := by
  have hrest : Roams realm s
      (Lisp.evaluateSourceIn steps s.root source file) := by
    unfold Lisp.evaluateSourceIn
    cases Lisp.read source file with
    | ok forms => exact .evaluateForms steps forms hconfined hhere
    | error fault => exact .fail s fault
  exact hrest

end Roams

/-- What a session can be asked to do. -/
inductive Request where
  /-- Evaluate a form in a scope. -/
  | evaluate (form : Value Empty) (scope : ScopeId)
  /-- Evaluate forms from left to right in one scope. -/
  | evaluateAll (forms : List (Value Empty)) (scope : ScopeId)
  /-- Read a source and evaluate its forms in the root scope. -/
  | source (text file : String)

namespace Request

/-- The session left by a request that ends within some number of steps. -/
def session? (steps : Nat) (s : Session Empty) :
    Request → Option (Session Empty)
  | .evaluate form scope => (Lisp.evaluate steps form scope s).session?
  | .evaluateAll forms scope =>
      (Lisp.evaluateAll (Lisp.evaluate steps) forms scope s).session?
  | .source text file => (evaluateSource steps text file s).session?

/-- Whether a request mentions only scopes of a realm. -/
def Within (realm : Realm) (s : Session Empty) : Request → Prop
  | .evaluate form scope =>
      form.Within realm s.scopeCount ∧ realm.holds s.scopeCount scope
  | .evaluateAll forms scope =>
      (∀ form ∈ forms, form.Within realm s.scopeCount) ∧
        realm.holds s.scopeCount scope
  | .source _ _ => realm.holds s.scopeCount s.root

theorem moves {realm : Realm} {request : Request} {steps : Nat}
    {s t : Session Empty} (hconfined : s.Confined realm)
    (hwithin : request.Within realm s)
    (hends : request.session? steps s = some t) : Moves realm s t := by
  cases request with
  | evaluate form scope =>
      exact Roams.evaluate steps hconfined hwithin.1 hwithin.2 t hends
  | evaluateAll forms scope =>
      exact Roams.evaluateAll steps hconfined hwithin.1 hwithin.2 t hends
  | source text file =>
      exact Roams.evaluateSource steps text file hconfined hwithin t hends

theorem changes {request : Request} {steps : Nat} {s t : Session Empty}
    (hends : request.session? steps s = some t) : Changes s t := by
  have hconfined : s.Confined .all :=
    ⟨Nat.zero_le _, fun _ _ _ _ => trivial, fun _ _ _ _ _ _ _ => trivial⟩
  have hwithin : request.Within .all s := by
    cases request with
    | evaluate => exact ⟨fun _ _ => trivial, trivial⟩
    | evaluateAll => exact ⟨fun _ _ _ _ => trivial, trivial⟩
    | source => exact trivial
  exact Moves.changes (moves hconfined hwithin hends)

end Request

/-- The discipline of every request, however it ends: the depth is what it was;
every scope is still there, inside the same scope; a name bound in a scope is
still bound there, and one that could be looked up from a scope still can be;
what was displayed before is the beginning of what is displayed after.  Where
all scopes that are mentioned exist, every new scope lies inside an older one,
and all chains outwards stay finite. -/
theorem request_disciplined (request : Request) (steps : Nat)
    (s t : Session Empty) (hends : request.session? steps s = some t) :
    s.Keeps t ∧
    (∀ id name, (s.forest.lookup id name).isSome →
      (t.forest.lookup id name).isSome) ∧
    (s.Grounded → request.Within .existing s →
      t.Grounded ∧
      (∀ id, ¬ s.Has id → t.Has id →
        ∃ outer, t.forest.parent? id = some outer ∧ outer.index < id.index) ∧
      WellFounded fun outer id => t.forest.parent? id = some outer) := by
  have hchanges := request.changes hends
  refine ⟨hchanges.keeps, fun id name => hchanges.keeps.lookup, ?_⟩
  intro hgrounded hwithin
  have hafter := (request.moves hgrounded.confined hwithin hends).grounded hgrounded
  refine ⟨hafter, ?_, hafter.wellFounded⟩
  intro id hnew hexist
  obtain ⟨outer, haround⟩ := hchanges.exists_parent hnew hexist
  exact ⟨outer, haround, hafter.older id outer haround⟩

theorem Session.fresh_grounded (limit : Nat) (sink : Sink) (recording : Bool) :
    (Session.fresh limit sink recording : Session H).Grounded where
  root := Nat.one_pos
  older := by
    intro id outer haround
    rw [fresh, Forest.parent?_push] at haround
    split at haround
    · cases haround
    · simp [Forest.parent?, Forest.empty] at haround
  captured := by
    intro id name v hfound scope hheld
    rcases fresh_get?_cases hfound with ⟨op, rfl⟩ | rfl <;> cases hheld

/-- `((lambda (n) (set! m n)) 5)`, with the builtins themselves as heads; there
is no `m` to be assigned. -/
def sampleLapse : Value Empty :=
  .list 0 [.list 1 [.native (.builtin .lambda), .list 2 [.ref "n" none],
    .list 3 [.native (.builtin .assign), .ref "m" none, .ref "n" none]],
    .int 5]

/-- A call that opens a scope and then fails. -/
theorem sampleLapse_disciplined :
    ∃ t, (Request.evaluate sampleLapse ⟨0⟩).session? 9
        (.fresh 8 {} false) = some t ∧
      (Session.fresh 8 {} false).Keeps t ∧ t.Grounded := by
  let request : Request := .evaluate sampleLapse ⟨0⟩
  let s : Session Empty := .fresh 8 {} false
  have hsettled : (request.session? 9 s).isSome = true := by cbv
  obtain ⟨t, hends⟩ := Option.isSome_iff_exists.mp hsettled
  have hwithin : request.Within .existing s := by
    refine ⟨?_, Nat.one_pos⟩
    intro captured hmem
    simp [sampleLapse, Value.list, Value.listFrom, Value.captures] at hmem
  obtain ⟨hkeeps, -, hgrounded⟩ := request_disciplined request 9 s t hends
  exact ⟨t, hends, hkeeps, (hgrounded (Session.fresh_grounded ..) hwithin).1⟩

end Lisp
