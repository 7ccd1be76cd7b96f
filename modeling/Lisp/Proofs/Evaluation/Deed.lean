import Lisp.Proofs.Evaluation.BigStep

/-!
What the builtins that have nothing evaluated can do.  There are five shapes;
what holds of each of them holds of all these builtins.  They make their values
of the operands they are given and of nothing else, and blame no place that
their operands do not show.
-/

namespace Lisp

variable {H α : Type}

/-- A builtin that takes values evaluates nothing itself. -/
theorem Builtin.evaluates_eq_false {op : Builtin}
    (heager : op.evaluatesOperands = true) : op.evaluates = false := by
  cases op <;> first | rfl | cases heager

/-- The computations a builtin called in `scope` may amount to when it has
nothing evaluated. -/
inductive Deed (scope : ScopeId) : Eval H (Turn H) → Prop where
  | answers (value : Value H) : Deed scope (pure (.done value))
  | fails (fault : Fault) : Deed scope (.fail fault)
  | makes (build : Nat → Value H) :
      Deed scope (do
        let batch ← .freshBatch
        return .done (build batch))
  | displays (line : String) :
      Deed scope (do
        .emit line
        return .done .nil)
  | namesMacro (name : String) (build : Nat → Value H) :
      Deed scope (do
        .note (.macroDefined name)
        let batch ← .freshBatch
        .assign scope name (build batch)
        return .done .nil)

/-- The values that consist of nothing but themselves. -/
def Value.isPlain : Value H → Bool
  | .nil | .bool _ | .int _ | .big _ | .float _ | .str _ => true
  | _ => false

/-- A property of values that a cell has just if its head and its tail have it,
and that the values that consist of nothing but themselves have. -/
structure Value.Hereditary (p : Value H → Prop) : Prop where
  plain : ∀ v : Value H, v.isPlain = true → p v
  pair : ∀ id car cdr place, p (.pair id car cdr place) ↔ p car ∧ p cdr

section Hereditary

variable {p : Value H → Prop}

theorem Value.Hereditary.items (hp : Hereditary p) {v : Value H}
    {items : List (Value H)} (hholds : p v) (hproper : v.items? = some items) :
    ∀ item ∈ items, p item := by
  induction v generalizing items with
  | nil =>
      cases hproper
      exact fun _ hmem => nomatch hmem
  | pair id car cdr place _ ih =>
      obtain ⟨hfirst, hlater⟩ := (hp.pair _ _ _ _).mp hholds
      simp only [items?, Option.map_eq_some_iff] at hproper
      obtain ⟨rest, hproper, rfl⟩ := hproper
      exact List.forall_mem_cons.mpr ⟨hfirst, ih hlater hproper⟩
  | _ => cases hproper

/-- An expansion has what its body and the arguments have. -/
theorem Value.Hereditary.substituteFrom (hp : Hereditary p)
    {body : Value H} {params : List String} {arguments : Bindings (Value H)}
    {scope : ScopeId} (hholds : p body)
    (hheld : ∀ name v, arguments.get? name = some v → p v) (index : Nat) :
    p (body.substituteFrom params arguments scope index).1 := by
  induction body generalizing index with
  | ref name place =>
      rw [Value.substituteFrom_ref, Value.resolve]
      split
      · cases hfound : arguments.get? name with
        | none => exact hholds
        | some v => exact hheld name v hfound
      · exact hholds
  | pair id car cdr place ihCar ihCdr =>
      obtain ⟨hfirst, hlater⟩ := (hp.pair _ _ _ _).mp hholds
      rw [Value.substituteFrom_pair]
      exact (hp.pair _ _ _ _).mpr ⟨ihCar hfirst _, ihCdr hlater _⟩
  | _ => exact hholds

end Hereditary

/-- What a builtin called in `scope` can make of the values and of the forms it
is given. -/
inductive Made (scope : ScopeId) (values forms : List (Value H)) :
    Value H → Prop where
  | plain {v : Value H} (hflat : v.isPlain = true) : Made scope values forms v
  | value {v : Value H} (hgiven : v ∈ values) : Made scope values forms v
  | car {id : ObjectId} {head rest : Value H} {place : Option Location}
      (hgiven : .pair id head rest place ∈ values) :
      Made scope values forms head
  | cdr {id : ObjectId} {head rest : Value H} {place : Option Location}
      (hgiven : .pair id head rest place ∈ values) :
      Made scope values forms rest
  | pair (id : ObjectId) {head rest : Value H}
      (hfirst : Made scope values forms head)
      (hlater : Made scope values forms rest) :
      Made scope values forms (.pair id head rest none)
  | form {v : Value H} (hgiven : v ∈ forms) : Made scope values forms v
  | closure (id : ObjectId) {names : List String} {body : Value H}
      (hdistinct : names.Nodup) (hgiven : body ∈ forms) :
      Made scope values forms (.closure id names body scope)
  | expander (id : ObjectId) {names : List String} {body : Value H}
      (hdistinct : names.Nodup) (hgiven : body ∈ forms) :
      Made scope values forms (.expander id names body)

/-- What a builtin makes has what it is made of has, procedures and macros if
their bodies being given is enough for that. -/
theorem Made.holds {p : Value H → Prop} (hp : Value.Hereditary p)
    {scope : ScopeId} {values forms : List (Value H)} {v : Value H}
    (hmade : Made scope values forms v) (hvaluesHold : ∀ v ∈ values, p v)
    (hformsHold : ∀ v ∈ forms, p v)
    (hclosures : ∀ id names body, names.Nodup → body ∈ forms →
      p (.closure id names body scope))
    (hexpanders : ∀ id names body, names.Nodup → body ∈ forms →
      p (.expander id names body)) : p v := by
  induction hmade with
  | plain hflat => exact hp.plain _ hflat
  | value hgiven => exact hvaluesHold _ hgiven
  | car hgiven => exact ((hp.pair _ _ _ _).mp (hvaluesHold _ hgiven)).1
  | cdr hgiven => exact ((hp.pair _ _ _ _).mp (hvaluesHold _ hgiven)).2
  | pair _ _ _ ih₁ ih₂ => exact (hp.pair _ _ _ _).mpr ⟨ih₁, ih₂⟩
  | form hgiven => exact hformsHold _ hgiven
  | closure id hdistinct hgiven => exact hclosures id _ _ hdistinct hgiven
  | expander id hdistinct hgiven => exact hexpanders id _ _ hdistinct hgiven

/-- Whether a place is that of a form or of an element of it. -/
def Value.Shows (form : Value H) (place : Location) : Prop :=
  form.place = some place ∨
    ∃ items, form.items? = some items ∧ ∃ item ∈ items,
      item.place = some place

/-- A fault that is blamed on no place, or on one that a form shows. -/
def Fault.Within (forms : List (Value H)) (fault : Fault) : Prop :=
  ∀ place, fault.place = some place → ∃ form ∈ forms, form.Shows place

theorem Fault.within_unplaced (forms : List (Value H)) (cause : Cause) :
    Fault.Within forms { cause } := by
  intro place hblamed
  cases hblamed

/-- A deed together with what it is made of: the values and forms that the
builtin was given. -/
inductive Work (scope : ScopeId) (values forms : List (Value H)) :
    Eval H (Turn H) → Prop where
  | answers {value : Value H} (hmade : Made scope values forms value) :
      Work scope values forms (pure (.done value))
  | fails {fault : Fault} (hwithin : fault.Within forms) :
      Work scope values forms (.fail fault)
  | makes {build : Nat → Value H}
      (hmade : ∀ batch, Made scope values forms (build batch)) :
      Work scope values forms (do
        let batch ← .freshBatch
        return .done (build batch))
  | displays (line : String) :
      Work scope values forms (do
        .emit line
        return .done .nil)
  | namesMacro (name : String) {build : Nat → Value H}
      (hmade : ∀ batch, Made scope values forms (build batch)) :
      Work scope values forms (do
        .note (.macroDefined name)
        let batch ← .freshBatch
        .assign scope name (build batch)
        return .done .nil)

theorem Work.deed {scope : ScopeId} {values forms : List (Value H)}
    {x : Eval H (Turn H)} (hwork : Work scope values forms x) :
    Deed scope x := by
  cases hwork with
  | answers => exact .answers _
  | fails => exact .fails _
  | makes => exact .makes _
  | displays line => exact .displays line
  | namesMacro name => exact .namesMacro name _

section Work

variable {scope : ScopeId} {values forms : List (Value H)}

theorem Work.unplaced (cause : Cause) :
    Work scope values forms (.fail { cause }) :=
  .fails (Fault.within_unplaced forms cause)

theorem Work.ofExcept {result : Except Cause α} {build : α → Value H}
    (hmade : ∀ a, result = .ok a → Made scope values forms (build a)) :
    Work scope values forms (do
      return .done (build (← .ofExcept result))) := by
  cases result with
  | ok a => exact .answers (hmade a rfl)
  | error cause => exact .unplaced cause

theorem Made.listFrom {items : List (Value H)}
    (hgiven : ∀ item ∈ items, item ∈ values) (batch index : Nat) :
    Made scope values forms (.listFrom batch index items) := by
  induction items generalizing index with
  | nil => exact .plain rfl
  | cons item items ih =>
      exact .pair _ (.value (hgiven item List.mem_cons_self))
        (ih (fun other hmem => hgiven other (List.mem_cons_of_mem item hmem)) _)

theorem Made.arithmetic {op : ArithOp} {a b v : Value H}
    (hresult : a.arithmetic op b = .ok v) : Made scope values forms v := by
  unfold Value.arithmetic at hresult
  split at hresult
  · next x y _ _ =>
      cases hcombined : x.combine op y with
      | error cause =>
          rw [hcombined] at hresult
          cases hresult
      | ok n =>
          rw [hcombined] at hresult
          cases hresult
          cases n <;> exact .plain rfl
  · cases hresult

theorem collectNames_within {items : List (Value H)} {form : String}
    {seen : List String} {fault : Fault}
    (hfails : collectNames form seen items = .error fault) (place : Location)
    (hblamed : fault.place = some place) :
    ∃ item ∈ items, item.place = some place := by
  induction items generalizing seen with
  | nil => cases hfails
  | cons item items ih =>
      cases item with
      | ref name own =>
          simp only [collectNames] at hfails
          split at hfails
          · cases hfails
            exact ⟨_, List.mem_cons_self, hblamed⟩
          · obtain ⟨other, hmem, hshown⟩ := ih hfails
            exact ⟨other, List.mem_cons_of_mem _ hmem, hshown⟩
      | _ =>
          cases hfails
          cases hblamed

theorem parameterNames_within {params : Value H} {form : String}
    {fault : Fault} (hfails : parameterNames form params = .error fault)
    (place : Location) (hblamed : fault.place = some place) :
    params.Shows place := by
  unfold parameterNames at hfails
  split at hfails
  · next items hproper =>
      exact .inr ⟨items, hproper, collectNames_within hfails place hblamed⟩
  · cases hfails
    exact .inl hblamed

/-- Names are collected from items that are names, all distinct and none seen
before, and from no others. -/
theorem collectNames_eq_ok_iff {items : List (Value H)} {form : String}
    {seen names : List String} (hdistinct : seen.Nodup) :
    collectNames form seen items = .ok names ↔
      ∃ own, items.map Value.refName? = own.map some ∧
        (seen.reverse ++ own).Nodup ∧ names = seen.reverse ++ own := by
  induction items generalizing seen with
  | nil =>
      simp only [collectNames, Except.ok.injEq, List.map_nil]
      constructor
      · rintro rfl
        refine ⟨[], rfl, ?_, (List.append_nil _).symm⟩
        rw [List.append_nil]
        exact (List.reverse_perm seen).nodup_iff.mpr hdistinct
      · rintro ⟨own, hshape, -, rfl⟩
        rw [List.map_eq_nil_iff.mp hshape.symm, List.append_nil]
  | cons item items ih =>
      cases item with
      | ref name place =>
          simp only [collectNames]
          split
          · next hagain =>
              refine ⟨nofun, ?_⟩
              rintro ⟨own, hshape, hapart, -⟩
              obtain ⟨_, rest, rfl, hsame, -⟩ := List.map_eq_cons_iff.mp hshape.symm
              cases hsame
              rw [List.nodup_append] at hapart
              have hhere : name ∈ seen.reverse := List.mem_reverse.mpr hagain
              exact absurd rfl (hapart.2.2 name hhere name List.mem_cons_self)
          · next hnew =>
              have hlonger : (name :: seen).Nodup :=
                List.nodup_cons.mpr ⟨hnew, hdistinct⟩
              rw [ih hlonger]
              constructor
              · rintro ⟨own, hshape, hapart, rfl⟩
                refine ⟨name :: own, ?_, ?_, ?_⟩
                · rw [List.map_cons, List.map_cons, hshape]
                  rfl
                · simpa using hapart
                · simp
              · rintro ⟨own, hshape, hapart, rfl⟩
                obtain ⟨_, rest, rfl, hsame, hothers⟩ :=
                  List.map_eq_cons_iff.mp hshape.symm
                cases hsame
                exact ⟨rest, hothers.symm, by simpa using hapart, by simp⟩
      | _ =>
          refine ⟨nofun, ?_⟩
          rintro ⟨own, hshape, -⟩
          obtain ⟨_, _, _, hsame, -⟩ := List.map_eq_cons_iff.mp hshape.symm
          cases hsame

/-- Parameters are taken from proper lists of distinct names and from nothing
else; they are those names in that order. -/
theorem parameterNames_eq_ok_iff {form : String} {params : Value H}
    {names : List String} :
    parameterNames form params = .ok names ↔
      ∃ items, params.items? = some items ∧
        items.map Value.refName? = names.map some ∧ names.Nodup := by
  unfold parameterNames
  split
  · next items hproper =>
      rw [collectNames_eq_ok_iff List.nodup_nil, hproper]
      constructor
      · rintro ⟨own, hshape, hdistinct, rfl⟩
        exact ⟨items, rfl, hshape, hdistinct⟩
      · rintro ⟨_, ⟨⟩, hshape, hdistinct⟩
        exact ⟨names, hshape, hdistinct, rfl⟩
  · next himproper =>
      refine ⟨nofun, ?_⟩
      rintro ⟨items, hproper, -⟩
      rw [himproper] at hproper
      cases hproper

theorem Work.takeParameters {form : String} {params : Value H}
    (hgiven : params ∈ forms) {next : List String → Eval H (Turn H)}
    (hrest : ∀ names, names.Nodup → Work scope values forms (next names)) :
    Work scope values forms (Lisp.takeParameters form params >>= next) := by
  unfold Lisp.takeParameters
  cases hread : parameterNames form params with
  | ok names =>
      obtain ⟨_, -, -, hdistinct⟩ := parameterNames_eq_ok_iff.mp hread
      exact hrest names hdistinct
  | error fault =>
      refine .fails fun place hblamed => ⟨params, hgiven, ?_⟩
      exact parameterNames_within hread place hblamed

end Work

/-- The operands that a builtin is given as values. -/
def Builtin.values (op : Builtin) (operands : List (Value H)) :
    List (Value H) :=
  if op.evaluatesOperands then operands else []

/-- The operands that a builtin is given as forms. -/
def Builtin.forms (op : Builtin) (operands : List (Value H)) :
    List (Value H) :=
  if op.evaluatesOperands then [] else operands

theorem Builtin.mem_of_mem_values {op : Builtin} {operands : List (Value H)}
    {v : Value H} (hmem : v ∈ op.values operands) : v ∈ operands := by
  unfold values at hmem
  split at hmem
  · exact hmem
  · cases hmem

theorem Builtin.mem_of_mem_forms {op : Builtin} {operands : List (Value H)}
    {v : Value H} (hmem : v ∈ op.forms operands) : v ∈ operands := by
  unfold forms at hmem
  split at hmem
  · cases hmem
  · exact hmem

/-- Every builtin that has nothing evaluated works on its operands alone. -/
theorem Builtin.alone_work {op : Builtin} (operands : List (Value H))
    (scope : ScopeId) (hinert : op.evaluates = false) :
    Work scope (op.values operands) (op.forms operands)
      (op.alone operands scope) := by
  cases op with
  | arith op =>
      simp only [alone, call]
      split
      · exact .ofExcept fun v hresult => .arithmetic hresult
      · exact .unplaced _
  | compare test =>
      simp only [alone, call]
      split
      · exact .ofExcept fun _ _ => .plain rfl
      · exact .unplaced _
  | equal =>
      simp only [alone, call]
      split
      · exact .ofExcept fun _ _ => .plain rfl
      · exact .unplaced _
  | car =>
      simp only [alone, call]
      split
      · exact .answers (.car List.mem_cons_self)
      · exact .unplaced _
      · exact .unplaced _
  | cdr =>
      simp only [alone, call]
      split
      · exact .answers (.cdr List.mem_cons_self)
      · exact .unplaced _
      · exact .unplaced _
  | cons =>
      simp only [alone, call]
      split
      · next head rest =>
          have hfirst : head ∈ [head, rest] := List.mem_cons_self
          have hlater : rest ∈ [head, rest] := by simp
          exact .makes fun batch => .pair _ (.value hfirst) (.value hlater)
      · exact .unplaced _
  | list => exact .makes fun batch => .listFrom (fun item hmem => hmem) batch 0
  | display => exact .displays _
  | repr =>
      simp only [alone, call]
      split
      · exact .answers (.plain rfl)
      · exact .unplaced _
  | quote =>
      simp only [alone, call]
      split
      · exact .answers (.form List.mem_cons_self)
      · exact .unplaced _
  | lambda =>
      simp only [alone, call]
      split
      · next params body =>
          have hinside : body ∈ [params, body] := by simp
          exact .takeParameters List.mem_cons_self fun names hdistinct =>
            .makes fun batch => .closure _ hdistinct hinside
      · exact .unplaced _
  | createMacro =>
      simp only [alone, call]
      split
      · next params body =>
          have hinside : body ∈ [params, body] := by simp
          exact .takeParameters List.mem_cons_self fun names hdistinct =>
            .makes fun batch => .expander _ hdistinct hinside
      · exact .unplaced _
  | defineMacro =>
      simp only [alone, call]
      split
      · next name own params body =>
          have hfirst : params ∈ [.ref name own, params, body] := by simp
          have hinside : body ∈ [.ref name own, params, body] := by simp
          exact .takeParameters hfirst fun names hdistinct =>
            .namesMacro name fun batch => .expander _ hdistinct hinside
      · exact .unplaced _
      · exact .unplaced _
  | define | assign | sequence | conditional => cases hinert

/-- Every builtin that has nothing evaluated has one of the five shapes. -/
theorem Builtin.alone_deed {op : Builtin} (operands : List (Value H))
    (scope : ScopeId) (hinert : op.evaluates = false) :
    Deed scope (op.alone operands scope) :=
  (op.alone_work operands scope hinert).deed

/-- Displaying a line leaves written what gets through of it; it ends without a
value or with a fault that has no place. -/
theorem display_cases (line : String) (s : Session H) :
    (do
        .emit line
        return .done .nil : Eval H (Turn H)) s =
      .value (.done .nil) (s.displayed line) ∨
    ∃ reason, (do
        .emit line
        return .done .nil : Eval H (Turn H)) s =
      .fault { cause := .displayFailed reason } (s.displayed line) := by
  simp only [bind, Eval.bind, Eval.emit]
  cases s.sink.reception.refusal? with
  | none => exact .inl rfl
  | some reason => exact .inr ⟨reason, rfl⟩

/-- A deed ends with a value or a fault, never with a tail. -/
theorem Deed.settles {scope : ScopeId} {x : Eval H (Turn H)}
    (hdeed : Deed scope x) (s : Session H) :
    (∃ value t, x s = .value (.done value) t) ∨
      ∃ fault t, x s = .fault fault t := by
  cases hdeed with
  | answers value => exact .inl ⟨value, s, rfl⟩
  | fails fault => exact .inr ⟨fault, s, rfl⟩
  | makes build => exact .inl ⟨_, _, rfl⟩
  | displays line =>
      rcases display_cases line s with hshown | ⟨reason, hrefused⟩
      · exact .inl ⟨_, _, hshown⟩
      · exact .inr ⟨_, _, hrefused⟩
  | namesMacro name build => exact .inl ⟨_, _, rfl⟩

/-- The session that a work leaves: nothing more is written or bound than this. -/
inductive Worked (scope : ScopeId) (values forms : List (Value H))
    (s : Session H) : Session H → Prop where
  | same : Worked scope values forms s s
  | numbered :
      Worked scope values forms s { s with batches := s.batches + 1 }
  | displayed (line : String) :
      Worked scope values forms s (s.displayed line)
  | named (name : String) {value : Value H}
      (hmade : Made scope values forms value) :
      Worked scope values forms s
        (Session.bind
          { s.record (.macroDefined name) with
            batches := (s.record (.macroDefined name)).batches + 1 }
          scope name value)

section Worked

variable {scope : ScopeId} {values forms : List (Value H)} {s t : Session H}

theorem Work.settles {x : Eval H (Turn H)}
    (hwork : Work scope values forms x) (s : Session H) :
    (∃ value t, x s = .value (.done value) t ∧
      Made scope values forms value ∧ Worked scope values forms s t) ∨
    ∃ fault t, x s = .fault fault t ∧ fault.Within forms ∧
      Worked scope values forms s t := by
  cases hwork with
  | answers hmade => exact .inl ⟨_, _, rfl, hmade, .same⟩
  | fails hwithin => exact .inr ⟨_, _, rfl, hwithin, .same⟩
  | makes hmade => exact .inl ⟨_, _, rfl, hmade _, .numbered⟩
  | displays line =>
      rcases display_cases line s with hshown | ⟨reason, hrefused⟩
      · exact .inl ⟨_, _, hshown, .plain rfl, .displayed line⟩
      · exact .inr ⟨_, _, hrefused, Fault.within_unplaced _ _, .displayed line⟩
  | namesMacro name hmade =>
      exact .inl ⟨_, _, rfl, .plain rfl, .named name (hmade _)⟩

theorem Builtin.alone_value {op : Builtin} {operands : List (Value H)}
    {value : Value H} (hinert : op.evaluates = false)
    (hresult : op.alone operands scope s = .value (.done value) t) :
    Made scope (op.values operands) (op.forms operands) value ∧
      Worked scope (op.values operands) (op.forms operands) s t := by
  rcases (op.alone_work operands scope hinert).settles s with
    ⟨_, _, hends, hmade, hworked⟩ | ⟨_, _, hends, -, -⟩
  · cases hends.symm.trans hresult
    exact ⟨hmade, hworked⟩
  · cases hends.symm.trans hresult

theorem Builtin.alone_fault {op : Builtin} {operands : List (Value H)}
    {fault : Fault} (hinert : op.evaluates = false)
    (hresult : op.alone operands scope s = .fault fault t) :
    fault.Within (op.forms operands) ∧
      Worked scope (op.values operands) (op.forms operands) s t := by
  rcases (op.alone_work operands scope hinert).settles s with
    ⟨_, _, hends, -, -⟩ | ⟨_, _, hends, hwithin, hworked⟩
  · cases hends.symm.trans hresult
  · cases hends.symm.trans hresult
    exact ⟨hwithin, hworked⟩

end Worked

/-- Whether everything that a session binds a name to has a property. -/
def Session.AllBound (p : Value H → Prop) (s : Session H) : Prop :=
  ∀ id name v, s.forest.get? id name = some v → p v

section AllBound

variable {p : Value H → Prop} {s t : Session H}

theorem Session.AllBound.lookup (hall : s.AllBound p) {scope : ScopeId}
    {name : String} {v : Value H}
    (hfound : s.forest.lookup scope name = some v) : p v := by
  obtain ⟨owner, _, hfound⟩ := List.exists_of_findSome?_eq_some hfound
  exact hall owner name v hfound

theorem Session.AllBound.record (hall : s.AllBound p) (event : Event H) :
    (s.record event).AllBound p := by
  unfold Session.record
  split <;> exact hall

theorem Session.AllBound.bind (hall : s.AllBound p) (scope : ScopeId)
    (name : String) {value : Value H} (hheld : p value) :
    (s.bind scope name value).AllBound p := by
  intro id key v hfound
  rw [Session.bind, Forest.get?_set] at hfound
  split at hfound
  · cases hfound
    exact hheld
  · exact hall id key v hfound

theorem Session.AllBound.openScope (hall : s.AllBound p)
    (params : List String) {arguments : List (Value H)}
    (hheld : ∀ v ∈ arguments, p v) (parent : ScopeId) :
    (s.openScope ⟨.ofLists params arguments, some parent⟩).AllBound p := by
  intro id name v hfound
  rw [Session.openScope, Forest.get?_push] at hfound
  split at hfound
  · exact hheld v (Bindings.mem_of_get?_ofLists hfound)
  · exact hall id name v hfound

theorem Session.AllBound.worked (hall : s.AllBound p) {scope : ScopeId}
    {values forms : List (Value H)} (hworked : Worked scope values forms s t)
    (hmade : ∀ v, Made scope values forms v → p v) : t.AllBound p := by
  cases hworked with
  | same | numbered | displayed => exact hall
  | named name hbuilt =>
      exact Session.AllBound.bind (hall.record _) scope name (hmade _ hbuilt)

end AllBound

end Lisp
