import Lisp.Proofs.Evaluation.Change

/-!
Whom evaluation blames.  The forms that evaluation takes up are parts of forms
that were read, and those carry the places of tokens: every name and every list
in them has one.  As long as no macro is expanded, this goes on through
closures and special forms, and a fault without a place of its own is blamed on
the call it comes from.
-/

namespace Lisp

variable {H : Type}

/-- What carrying out a task involves: one task in one session leads straight
to another. -/
inductive Subtask : Task H × Session H → Task H × Session H → Prop where
  | deeper {form scope s} (hroom : s.depth < s.limit) :
      Subtask (.evaluate form scope, s)
        (.value form scope, s.atDepth (s.depth + 1))
  | head {form id head rest own operands scope s}
      (hshape : form = .pair id head rest own)
      (hproper : rest.items? = some operands) :
      Subtask (.value form scope, s) (.evaluate head scope, s)
  | application {peak form id head rest own operands scope s operator mid}
      (hshape : form = .pair id head rest own)
      (hproper : rest.items? = some operands)
      (hevaluated : BigStep peak (.evaluate head scope) s (.ok operator) mid) :
      Subtask (.value form scope, s)
        (.call operator operands scope form.place, mid)
  | operands {operator operands scope place s}
      (hcheck : operator.admits operands.length = .ok ())
      (heager : operator.takesValues = true) :
      Subtask (.call operator operands scope place, s)
        (.arguments operator [] operands scope place, s)
  | operand {operator done form rest scope place s} :
      Subtask (.arguments operator done (form :: rest) scope place, s)
        (.evaluate form scope, s)
  | others {peak operator done form rest scope place s value mid}
      (hevaluated : BigStep peak (.evaluate form scope) s (.ok value) mid) :
      Subtask (.arguments operator done (form :: rest) scope place, s)
        (.arguments operator (done ++ [value]) rest scope place, mid)
  | body {id params body captured arguments scope place s}
      (hagree : arguments.length = params.length) :
      Subtask
        (.arguments (.closure id params body captured) arguments [] scope
          place, s)
        (.value body s.nextScope,
          s.openScope ⟨.ofLists params arguments, some captured⟩)
  | expansion {id params body arguments scope place s expanded}
      (hcopied : expanded =
        body.substitute params (.ofLists params arguments) s.nextScope) :
      Subtask
        (.arguments (.expander id params body) arguments [] scope place, s)
        (.value expanded scope,
          (s.openScope ⟨.ofLists params arguments, some scope⟩).record
            (.expanded expanded))
  | condition {condition yes no scope place s} :
      Subtask
        (.call (.native (.builtin .conditional)) [condition, yes, no] scope
          place, s)
        (.evaluate condition scope, s)
  | branch {peak condition yes no scope place s b mid}
      (hevaluated : BigStep peak (.evaluate condition scope) s
        (.ok (.bool b)) mid) :
      Subtask
        (.call (.native (.builtin .conditional)) [condition, yes, no] scope
          place, s)
        (.value (if b then yes else no) scope, mid)
  | begin {forms scope place s} :
      Subtask (.call (.native (.builtin .sequence)) forms scope place, s)
        (.sequence forms scope place, s)
  | last {form scope place s} :
      Subtask (.sequence [form] scope place, s) (.value form scope, s)
  | effect {form next rest scope place s} :
      Subtask (.sequence (form :: next :: rest) scope place, s)
        (.evaluate form scope, s)
  | further {peak form next rest scope place s value mid}
      (hevaluated : BigStep peak (.evaluate form scope) s (.ok value) mid) :
      Subtask (.sequence (form :: next :: rest) scope place, s)
        (.sequence (next :: rest) scope place, mid)
  | definition {name own form scope place s} :
      Subtask
        (.call (.native (.builtin .define)) [.ref name own, form] scope
          place, s)
        (.evaluate form scope, s)
  | assignment {name own form scope place s owner}
      (hfound : s.forest.owner? scope name = some owner) :
      Subtask
        (.call (.native (.builtin .assign)) [.ref name own, form] scope
          place, s)
        (.evaluate form scope, s)

/-- The expansion of a macro, its arguments evaluated. -/
def Task.IsExpansion : Task H → Prop
  | .arguments (.expander _ _ _) _ [] _ _ => True
  | _ => False

/-- Whether carrying out a task comes to the expansion of a macro.  A macro
that is called with the wrong number of operands, or with operands that fail,
is not expanded. -/
def Task.Expands (task : Task H) (s : Session H) : Prop :=
  ∃ inner mid, Relation.ReflTransGen Subtask (task, s) (inner, mid) ∧
    inner.IsExpansion

theorem Task.not_expands_of_subtask {task inner : Task H} {s mid : Session H}
    (hplain : ¬ task.Expands s) (hsub : Subtask (task, s) (inner, mid)) :
    ¬ inner.Expands mid := by
  rintro ⟨expansion, last, hpath, hexpansion⟩
  exact hplain ⟨expansion, last, .head hsub hpath, hexpansion⟩

theorem Task.Expands.cases {task : Task H} {s : Session H}
    (hexpands : task.Expands s) :
    task.IsExpansion ∨
      ∃ inner mid, Subtask (task, s) (inner, mid) ∧ inner.Expands mid := by
  obtain ⟨expansion, last, hpath, hexpansion⟩ := hexpands
  rcases hpath.cases_head with hsame | ⟨⟨inner, mid⟩, hsub, hpath⟩
  · cases hsame
    exact .inl hexpansion
  · exact .inr ⟨inner, mid, hsub, expansion, last, hpath, hexpansion⟩

/-- What is no cell is evaluated without expanding anything. -/
theorem Task.not_expands_atom {form : Value H} {scope : ScopeId}
    {s : Session H} (hatom : form.isPair = false) :
    ¬ (Task.evaluate form scope).Expands s := by
  intro hexpands
  rcases hexpands.cases with hexpansion | ⟨_, _, hsub, hexpands⟩
  · exact hexpansion
  cases hsub with
  | deeper =>
      rcases hexpands.cases with hexpansion | ⟨_, _, hsub, -⟩
      · exact hexpansion
      cases hsub with
      | head hshape | application hshape =>
          subst hshape
          cases hatom

section Sourced

variable {known : Location → Prop}

/-- Whether there is a place, and a known one. -/
def Known (known : Location → Prop) (place : Option Location) : Prop :=
  ∃ p, place = some p ∧ known p

/-- Whether a value, if it is a cell, has a known place of its own. -/
def Value.Placed (known : Location → Prop) : Value H → Prop
  | .pair _ _ _ place => Known known place
  | _ => True

/-- Whether a value consists of names with known places, of literals and of
cells, and holds no cell as the head of another unless its place is known. -/
def Value.Spelled (known : Location → Prop) : Value H → Prop
  | .ref _ place => Known known place
  | .pair _ car cdr _ =>
      car.Placed known ∧ car.Spelled known ∧ cdr.Spelled known
  | .closure _ _ _ _ | .expander _ _ _ => False
  | _ => True

/-- A form as it is read: every name and every list in it has a known place.
The cells inside a list need none. -/
def Value.Sourced (known : Location → Prop) (form : Value H) : Prop :=
  form.Placed known ∧ form.Spelled known

/-- A value all of whose closures have bodies as they are read. -/
def Value.Sound (known : Location → Prop) : Value H → Prop
  | .pair _ car cdr _ => car.Sound known ∧ cdr.Sound known
  | .closure _ _ body _ => body.Sourced known
  | _ => True

theorem Known.or {first second : Option Location}
    (hgiven : ∀ p, first = some p → known p) (hthere : Known known second) :
    Known known (first.or second) := by
  cases first with
  | none => exact hthere
  | some p => exact ⟨p, rfl, hgiven p rfl⟩

theorem Known.mono {more : Location → Prop} {place : Option Location}
    (hle : ∀ p, known p → more p) (hthere : Known known place) :
    Known more place := by
  obtain ⟨p, hhere, hknown⟩ := hthere
  exact ⟨p, hhere, hle p hknown⟩

theorem Value.Placed.mono {more : Location → Prop} {v : Value H}
    (hle : ∀ p, known p → more p) (hplaced : v.Placed known) :
    v.Placed more := by
  cases v with
  | pair => exact Known.mono hle hplaced
  | _ => trivial

theorem Value.Spelled.mono {more : Location → Prop} {v : Value H}
    (hle : ∀ p, known p → more p) (hspelled : v.Spelled known) :
    v.Spelled more := by
  induction v with
  | ref => exact Known.mono hle hspelled
  | pair id car cdr place ihCar ihCdr =>
      obtain ⟨hplaced, hfirst, hlater⟩ := hspelled
      exact ⟨hplaced.mono hle, ihCar hfirst, ihCdr hlater⟩
  | closure | expander => exact hspelled
  | _ => trivial

theorem Value.Sound.mono {more : Location → Prop} {v : Value H}
    (hle : ∀ p, known p → more p) (hsound : v.Sound known) : v.Sound more := by
  induction v with
  | pair id car cdr place ihCar ihCdr => exact ⟨ihCar hsound.1, ihCdr hsound.2⟩
  | closure => exact ⟨hsound.1.mono hle, hsound.2.mono hle⟩
  | _ => trivial

theorem Value.Sourced.head {id : ObjectId} {head rest : Value H}
    {own : Option Location}
    (hsourced : (Value.pair id head rest own).Sourced known) :
    head.Sourced known :=
  ⟨hsourced.2.1, hsourced.2.2.1⟩

theorem Value.Spelled.items {v : Value H} {items : List (Value H)}
    (hspelled : v.Spelled known) (hproper : v.items? = some items) :
    ∀ item ∈ items, item.Sourced known := by
  induction v generalizing items with
  | nil =>
      cases hproper
      exact fun _ hmem => nomatch hmem
  | pair id car cdr place _ ih =>
      obtain ⟨hplaced, hfirst, hlater⟩ := hspelled
      simp only [items?, Option.map_eq_some_iff] at hproper
      obtain ⟨rest, hproper, rfl⟩ := hproper
      exact List.forall_mem_cons.mpr ⟨⟨hplaced, hfirst⟩, ih hlater hproper⟩
  | _ => cases hproper

theorem Value.Sourced.known_place {form : Value H}
    (hsourced : form.Sourced known) {p : Location}
    (hshown : form.place = some p) : known p := by
  cases form with
  | ref name place =>
      obtain ⟨q, rfl, hknown⟩ := hsourced.2
      cases hshown
      exact hknown
  | pair id car cdr place =>
      obtain ⟨q, rfl, hknown⟩ := hsourced.1
      cases hshown
      exact hknown
  | _ => cases hshown

/-- A call as it is read has a known place. -/
theorem Value.Sourced.call_place {form : Value H} {id : ObjectId}
    {head rest : Value H} {own : Option Location}
    (hsourced : form.Sourced known) (hshape : form = .pair id head rest own) :
    Known known form.place := by
  subst hshape
  obtain ⟨p, rfl, hknown⟩ := hsourced.1
  exact ⟨p, rfl, hknown⟩

theorem Value.Sourced.known_of_shows {form : Value H}
    (hsourced : form.Sourced known) {p : Location} (hvisible : form.Shows p) :
    known p := by
  rcases hvisible with hshown | ⟨items, hproper, item, hmem, hshown⟩
  · exact hsourced.known_place hshown
  · exact (hsourced.2.items hproper item hmem).known_place hshown

theorem Value.Spelled.sound {v : Value H} (hspelled : v.Spelled known) :
    v.Sound known := by
  induction v with
  | pair id car cdr place ihCar ihCdr =>
      exact ⟨ihCar hspelled.2.1, ihCdr hspelled.2.2⟩
  | closure => exact hspelled.elim
  | _ => trivial

theorem Value.sound_hereditary :
    Value.Hereditary fun v : Value H => v.Sound known where
  plain v hflat := by
    cases v with
    | pair | closure => cases hflat
    | _ => trivial
  pair _ _ _ _ := Iff.rfl

theorem Made.sound {scope : ScopeId} {values forms : List (Value H)}
    {v : Value H} (hmade : Made scope values forms v)
    (hsound : ∀ v ∈ values, v.Sound known)
    (hsourced : ∀ form ∈ forms, form.Sourced known) : v.Sound known := by
  refine hmade.holds Value.sound_hereditary hsound ?_ ?_ ?_
  · exact fun form hgiven => (hsourced form hgiven).2.sound
  · exact fun _ _ body _ hgiven => hsourced body hgiven
  · exact fun _ _ _ _ _ => trivial

theorem Fault.Within.known_place {forms : List (Value H)} {fault : Fault}
    (hwithin : fault.Within forms)
    (hsourced : ∀ form ∈ forms, form.Sourced known) (p : Location)
    (hblamed : fault.place = some p) : known p := by
  obtain ⟨form, hmem, hshown⟩ := hwithin p hblamed
  exact (hsourced form hmem).known_of_shows hshown

end Sourced

/-- A session that binds only sound values. -/
def Session.Sound (known : Location → Prop) (s : Session H) : Prop :=
  ∀ id name v, s.forest.get? id name = some v → v.Sound known

section Sessions

variable {known : Location → Prop} {s t : Session H}

theorem Session.Sound.lookup (hsound : s.Sound known) {scope : ScopeId}
    {name : String} {v : Value H}
    (hfound : s.forest.lookup scope name = some v) : v.Sound known :=
  Session.AllBound.lookup hsound hfound

theorem Session.Sound.mono {more : Location → Prop}
    (hle : ∀ p, known p → more p) (hsound : s.Sound known) : s.Sound more :=
  fun id name v hfound => (hsound id name v hfound).mono hle

theorem Session.Sound.record (hsound : s.Sound known) (event : Event H) :
    (s.record event).Sound known :=
  Session.AllBound.record hsound event

theorem Session.Sound.bind (hsound : s.Sound known) (scope : ScopeId)
    (name : String) {value : Value H} (hheld : value.Sound known) :
    (s.bind scope name value).Sound known :=
  Session.AllBound.bind hsound scope name hheld

theorem Session.Sound.openScope (hsound : s.Sound known)
    (params : List String) {arguments : List (Value H)}
    (hheld : ∀ v ∈ arguments, v.Sound known) (parent : ScopeId) :
    (s.openScope ⟨.ofLists params arguments, some parent⟩).Sound known :=
  Session.AllBound.openScope hsound params hheld parent

theorem Session.Sound.worked (hsound : s.Sound known) {scope : ScopeId}
    {values forms : List (Value H)} (hworked : Worked scope values forms s t)
    (hmade : ∀ v, Made scope values forms v → v.Sound known) :
    t.Sound known :=
  Session.AllBound.worked hsound hworked hmade

end Sessions

/-- A task whose forms are as they are read, whose values are sound, and whose
call has a known place. -/
def Task.Sourced (known : Location → Prop) : Task H → Prop
  | .evaluate form _ | .value form _ => form.Sourced known
  | .call operator operands _ place =>
      operator.Sound known ∧ (∀ form ∈ operands, form.Sourced known) ∧
        Known known place
  | .arguments operator done rest _ place =>
      operator.Sound known ∧ (∀ v ∈ done, v.Sound known) ∧
        (∀ form ∈ rest, form.Sourced known) ∧ Known known place
  | .sequence forms _ place =>
      (∀ form ∈ forms, form.Sourced known) ∧ Known known place

/-- Where a task may be blamed.  Only a form that is refused for want of depth
may be left without a place, and its caller has one. -/
def Task.Blames (known : Location → Prop) (s : Session H) (fault : Fault) :
    Task H → Prop
  | .evaluate _ _ => (∀ p, fault.place = some p → known p) ∧
      (s.depth < s.limit → Known known fault.place)
  | _ => Known known fault.place

/-- What comes of a task: a sound session, and a sound value or a fault that
is blamed on a known place. -/
structure Accounted (known : Location → Prop) (task : Task H)
    (s : Session H) (answer : Answer H) (t : Session H) : Prop where
  session : t.Sound known
  value : ∀ v, answer = .ok v → v.Sound known
  fault : ∀ trouble, answer = .error trouble → task.Blames known s trouble

section Accounted

variable {known : Location → Prop} {task : Task H} {s t : Session H}

theorem Accounted.of_value {v : Value H} (hsession : t.Sound known)
    (hsound : v.Sound known) : Accounted known task s (.ok v) t where
  session := hsession
  value := by
    rintro _ ⟨⟩
    exact hsound
  fault := nofun

theorem Accounted.of_fault {fault : Fault} (hsession : t.Sound known)
    (hblames : task.Blames known s fault) :
    Accounted known task s (.error fault) t where
  session := hsession
  value := nofun
  fault := by
    rintro _ ⟨⟩
    exact hblames

/-- A call is blamed for a fault of its parts that has no place. -/
theorem Accounted.orAt {form : Value H} {scope : ScopeId} {fault : Fault}
    {place : Option Location}
    (hinner : Accounted known (.evaluate form scope) s (.error fault) t)
    (hthere : Known known place) : Known known (fault.orAt place).place :=
  .or (hinner.fault fault rfl).1 hthere

/-- The operands of a builtin that has nothing evaluated: it is given sound
values or forms as they are read. -/
def Builtin.Given (known : Location → Prop) (op : Builtin)
    (operands : List (Value H)) : Prop :=
  (∀ v ∈ op.values operands, v.Sound known) ∧
    ∀ form ∈ op.forms operands, form.Sourced known

theorem Builtin.given_values {op : Builtin} {operands : List (Value H)}
    (heager : op.evaluatesOperands = true)
    (hsound : ∀ v ∈ operands, v.Sound known) : op.Given known operands := by
  refine ⟨fun v hmem => hsound v (mem_of_mem_values hmem), ?_⟩
  intro form hmem
  rw [forms, heager] at hmem
  cases hmem

theorem Builtin.given_forms {op : Builtin} {operands : List (Value H)}
    (hraw : op.evaluatesOperands = false)
    (hsourced : ∀ form ∈ operands, form.Sourced known) :
    op.Given known operands := by
  refine ⟨?_, fun form hmem => hsourced form (mem_of_mem_forms hmem)⟩
  intro v hmem
  rw [values, hraw] at hmem
  cases hmem

theorem Accounted.of_alone_value {op : Builtin} {operands : List (Value H)}
    {scope : ScopeId} {value : Value H} (hsound : s.Sound known)
    (hinert : op.evaluates = false) (hgiven : op.Given known operands)
    (hresult : op.alone operands scope s = .value (.done value) t) :
    Accounted known task s (.ok value) t := by
  obtain ⟨hmade, hworked⟩ := Builtin.alone_value hinert hresult
  have hsoundMade : ∀ v, Made scope (op.values operands) (op.forms operands) v →
      v.Sound known := fun v hmade => hmade.sound hgiven.1 hgiven.2
  exact .of_value (hsound.worked hworked hsoundMade) (hsoundMade value hmade)

theorem Accounted.of_alone_fault {op : Builtin} {operands : List (Value H)}
    {scope : ScopeId} {fault : Fault} {place : Option Location}
    (hsound : s.Sound known) (hinert : op.evaluates = false)
    (hgiven : op.Given known operands) (hthere : Known known place)
    (hresult : op.alone operands scope s = .fault fault t)
    (hlifts : ∀ blamed : Fault, Known known blamed.place →
      task.Blames known s blamed) :
    Accounted known task s (.error (fault.orAt place)) t := by
  obtain ⟨hwithin, hworked⟩ := Builtin.alone_fault hinert hresult
  refine .of_fault (hsound.worked hworked ?_) (hlifts _ ?_)
  · exact fun v hmade => hmade.sound hgiven.1 hgiven.2
  · exact .or (hwithin.known_place hgiven.2) hthere

end Accounted

/-- Unless a macro is expanded, evaluation of forms as they are read accounts
for every fault. -/
theorem BigStep.accounted {known : Location → Prop} {peak : Nat}
    {task : Task H} {s t : Session H} {answer : Answer H}
    (hderived : BigStep peak task s answer t) (hsound : s.Sound known)
    (hsourced : task.Sourced known) (hplain : ¬ task.Expands s) :
    Accounted known task s answer t := by
  induction hderived with
  | tooDeep hfull =>
      -- A literal has no place; whoever asked for it will be blamed.
      refine .of_fault (hsound.record _) ⟨fun p => hsourced.known_place, ?_⟩
      exact fun hroom => absurd hroom (Nat.not_lt.mpr hfull)
  | deeper hroom _ ih =>
      have hinside := ih hsound hsourced
        (Task.not_expands_of_subtask hplain (.deeper hroom))
      refine ⟨hinside.session, hinside.value, fun trouble hfailed => ?_⟩
      obtain ⟨p, hhere, hknown⟩ := hinside.fault trouble hfailed
      refine ⟨fun q hshown => ?_, fun _ => ⟨p, hhere, hknown⟩⟩
      cases hhere.symm.trans hshown
      exact hknown
  | literal => exact .of_value hsound hsourced.2.sound
  | bound hfound => exact .of_value hsound (hsound.lookup hfound)
  | unbound => exact .of_fault hsound hsourced.2
  | dotted hshape => exact .of_fault hsound (hsourced.call_place hshape)
  | headFails hshape hproper _ ih =>
      have hthere := hsourced.call_place hshape
      subst hshape
      have hinner := ih hsound hsourced.head
        (Task.not_expands_of_subtask hplain (.head rfl hproper))
      exact .of_fault hinner.session (hinner.orAt hthere)
  | application hshape hproper hevaluated _ ih₁ ih₂ =>
      have hthere := hsourced.call_place hshape
      subst hshape
      have hfirst := ih₁ hsound hsourced.head
        (Task.not_expands_of_subtask hplain (.head rfl hproper))
      have hoperands := hsourced.2.2.2.items hproper
      have hlater := ih₂ hfirst.session ⟨hfirst.value _ rfl, hoperands, hthere⟩
        (Task.not_expands_of_subtask hplain (.application rfl hproper hevaluated))
      exact ⟨hlater.session, hlater.value, hlater.fault⟩
  | refused => exact .of_fault hsound hsourced.2.2
  | miscounted => exact .of_fault hsound hsourced.2.2.2
  | operands hcheck heager _ ih =>
      obtain ⟨hoperator, hoperands, hthere⟩ := hsourced
      have hlater := ih hsound ⟨hoperator, List.forall_mem_nil _, hoperands, hthere⟩
        (Task.not_expands_of_subtask hplain (.operands hcheck heager))
      exact ⟨hlater.session, hlater.value, hlater.fault⟩
  | operandFails _ ih =>
      obtain ⟨-, -, hrest, hthere⟩ := hsourced
      have hinner := ih hsound (hrest _ List.mem_cons_self)
        (Task.not_expands_of_subtask hplain .operand)
      exact .of_fault hinner.session (hinner.orAt hthere)
  | operand hevaluated _ ih₁ ih₂ =>
      obtain ⟨hoperator, hdone, hrest, hthere⟩ := hsourced
      obtain ⟨hform, hothers⟩ := List.forall_mem_cons.mp hrest
      have hfirst := ih₁ hsound hform
        (Task.not_expands_of_subtask hplain .operand)
      have hlonger := List.forall_mem_append.mpr
        ⟨hdone, List.forall_mem_singleton.mpr (hfirst.value _ rfl)⟩
      have hlater := ih₂ hfirst.session ⟨hoperator, hlonger, hothers, hthere⟩
        (Task.not_expands_of_subtask hplain (.others hevaluated))
      exact ⟨hlater.session, hlater.value, hlater.fault⟩
  | function heager hresult =>
      obtain ⟨-, hdone, -, -⟩ := hsourced
      exact .of_alone_value hsound (Builtin.evaluates_eq_false heager)
        (Builtin.given_values heager hdone) hresult
  | functionFails heager hresult =>
      obtain ⟨-, hdone, -, hthere⟩ := hsourced
      exact .of_alone_fault hsound (Builtin.evaluates_eq_false heager)
        (Builtin.given_values heager hdone) hthere hresult fun _ hblamed => hblamed
  | body hagree _ ih =>
      obtain ⟨hoperator, hdone, -, -⟩ := hsourced
      have hinside := ih (hsound.openScope _ hdone _) hoperator
        (Task.not_expands_of_subtask hplain (.body hagree))
      exact ⟨hinside.session, hinside.value, hinside.fault⟩
  | expansion =>
      -- An expanded form mixes places of the macro and of its operands with
      -- cells that have none.
      exact absurd ⟨_, _, .refl, trivial⟩ hplain
  | direct _ hraw hinert hresult =>
      exact .of_alone_value hsound hinert
        (Builtin.given_forms hraw hsourced.2.1) hresult
  | directFails _ hraw hinert hresult =>
      exact .of_alone_fault hsound hinert (Builtin.given_forms hraw hsourced.2.1)
        hsourced.2.2 hresult fun _ hblamed => hblamed
  | conditionFails _ ih =>
      obtain ⟨-, hforms, hthere⟩ := hsourced
      have hinner := ih hsound (hforms _ List.mem_cons_self)
        (Task.not_expands_of_subtask hplain .condition)
      exact .of_fault hinner.session (hinner.orAt hthere)
  | conditionRefused _ _ ih =>
      obtain ⟨-, hforms, hthere⟩ := hsourced
      have hcondition := hforms _ List.mem_cons_self
      have hinner := ih hsound hcondition
        (Task.not_expands_of_subtask hplain .condition)
      exact .of_fault hinner.session
        (.or (fun p => hcondition.known_place) hthere)
  | @branch _ _ _ yes no _ _ _ b _ _ _ hevaluated _ ih₁ ih₂ =>
      obtain ⟨-, hforms, -⟩ := hsourced
      have hfirst := ih₁ hsound (hforms _ List.mem_cons_self)
        (Task.not_expands_of_subtask hplain .condition)
      have hchosen : (if b then yes else no).Sourced known := by
        cases b <;> exact hforms _ (by simp)
      have hlater := ih₂ hfirst.session hchosen
        (Task.not_expands_of_subtask hplain (.branch hevaluated))
      exact ⟨hlater.session, hlater.value, hlater.fault⟩
  | begin _ ih =>
      have hinside := ih hsound hsourced.2
        (Task.not_expands_of_subtask hplain .begin)
      exact ⟨hinside.session, hinside.value, hinside.fault⟩
  | nothing => exact .of_value hsound trivial
  | last _ ih =>
      have hinside := ih hsound (hsourced.1 _ List.mem_cons_self)
        (Task.not_expands_of_subtask hplain .last)
      exact ⟨hinside.session, hinside.value, hinside.fault⟩
  | effectFails _ ih =>
      have hinner := ih hsound (hsourced.1 _ List.mem_cons_self)
        (Task.not_expands_of_subtask hplain .effect)
      exact .of_fault hinner.session (hinner.orAt hsourced.2)
  | effect hevaluated _ ih₁ ih₂ =>
      obtain ⟨hform, hrest⟩ := List.forall_mem_cons.mp hsourced.1
      have hfirst := ih₁ hsound hform (Task.not_expands_of_subtask hplain .effect)
      have hlater := ih₂ hfirst.session ⟨hrest, hsourced.2⟩
        (Task.not_expands_of_subtask hplain (.further hevaluated))
      exact ⟨hlater.session, hlater.value, hlater.fault⟩
  | nameless => exact .of_fault hsound hsourced.2.2
  | definitionFails _ ih =>
      obtain ⟨-, hforms, hthere⟩ := hsourced
      have hinner := ih hsound (hforms _ (by simp))
        (Task.not_expands_of_subtask hplain .definition)
      exact .of_fault hinner.session (hinner.orAt hthere)
  | definition _ ih =>
      obtain ⟨-, hforms, -⟩ := hsourced
      have hinner := ih hsound (hforms _ (by simp))
        (Task.not_expands_of_subtask hplain .definition)
      have hheld := hinner.value _ rfl
      exact .of_value ((hinner.session.record _).bind _ _ hheld) trivial
  | unassignable =>
      obtain ⟨-, hforms, hthere⟩ := hsourced
      have htarget := hforms _ List.mem_cons_self
      exact .of_fault hsound (.or (fun p => htarget.known_place) hthere)
  | assignmentFails hfound _ ih =>
      obtain ⟨-, hforms, hthere⟩ := hsourced
      have hinner := ih hsound (hforms _ (by simp))
        (Task.not_expands_of_subtask hplain (.assignment hfound))
      exact .of_fault hinner.session (hinner.orAt hthere)
  | assignment hfound _ ih =>
      obtain ⟨-, hforms, -⟩ := hsourced
      have hinner := ih hsound (hforms _ (by simp))
        (Task.not_expands_of_subtask hplain (.assignment hfound))
      have hheld := hinner.value _ rfl
      exact .of_value (hinner.session.bind _ _ hheld) trivial

end Lisp
