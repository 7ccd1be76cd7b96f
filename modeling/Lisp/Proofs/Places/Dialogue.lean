import Lisp.Proofs.Evaluation.Discipline
import Lisp.Proofs.Places.Blame
import Lisp.Proofs.Reading.Whereabouts
import Mathlib

/-!
Sources one after another.  A session that is given source after source, and in
which no macro is ever expanded, blames every fault on a place in one of the
sources: the place of a token, or, where the last source has no tokens, the
place at which scanning it stopped.
-/

namespace Lisp

section Forms

variable {H : Type} {known : Location → Prop}

theorem Value.sourced_ofAtom (text : String) {place : Location}
    (hknown : known place) (batch index : Nat) :
    (label batch (.ofAtom text place) index : Value H × Nat).1.Sourced
      known := by
  unfold Datum.ofAtom
  split_ifs
  · exact ⟨trivial, trivial⟩
  · exact ⟨trivial, trivial⟩
  split
  · split_ifs <;> exact ⟨trivial, trivial⟩
  split
  · exact ⟨trivial, trivial⟩
  · exact ⟨trivial, place, rfl, hknown⟩

/-- The cells of a list need no places if its items and its tail have them. -/
theorem Value.spelled_chain {items : List Datum} {tail : Datum} {batch : Nat}
    (hsourced : ∀ item ∈ items, ∀ index,
      (label batch item index : Value H × Nat).1.Sourced known)
    (hended : ∀ index,
      (label batch tail index : Value H × Nat).1.Spelled known)
    (index : Nat) :
    (label batch (items.foldr (fun item rest => .pair item rest none) tail)
      index : Value H × Nat).1.Spelled known := by
  induction items generalizing index with
  | nil => exact hended index
  | cons item items ih =>
      obtain ⟨hfirst, hrest⟩ := List.forall_mem_cons.mp hsourced
      obtain ⟨hplaced, hspelled⟩ := hfirst (index + 1)
      exact ⟨hplaced, hspelled, ih hrest _⟩

/-- A list opened at a known place has known places throughout if its items and
its tail do. -/
theorem Value.sourced_list {first : Piece} {rest : List Piece} {tail : Datum}
    {opened : Location} {batch : Nat} (hknown : known opened)
    (hsourced : ∀ piece ∈ first :: rest, ∀ index,
      (label batch piece.2 index : Value H × Nat).1.Sourced known)
    (hended : ∀ index,
      (label batch tail index : Value H × Nat).1.Spelled known)
    (index : Nat) :
    (label batch
      (.pair first.2
        ((rest.map Prod.snd).foldr (fun item tail => .pair item tail none) tail)
        (some opened))
      index : Value H × Nat).1.Sourced known := by
  obtain ⟨hhead, hothers⟩ := List.forall_mem_cons.mp hsourced
  obtain ⟨hplaced, hspelled⟩ := hhead (index + 1)
  have hitems : ∀ item ∈ rest.map Prod.snd, ∀ index,
      (label batch item index : Value H × Nat).1.Sourced known := by
    intro item hmem
    obtain ⟨piece, hinside, rfl⟩ := List.mem_map.mp hmem
    exact hothers piece hinside
  exact ⟨⟨opened, rfl, hknown⟩, hplaced, hspelled, spelled_chain hitems hended _⟩

/-- A form spelled by tokens with known places has known places throughout. -/
theorem Spells.sourced {depth : Nat} {tokens : List Token} {form : Datum}
    (hspells : Spells depth tokens form)
    (htokensKnown : ∀ token ∈ tokens, known token.place) (batch index : Nat) :
    (Value.label batch form index : Value H × Nat).1.Sourced known := by
  induction hspells generalizing index with
  | literal =>
      exact Value.sourced_ofAtom _ (htokensKnown _ List.mem_cons_self) batch _
  | name => exact ⟨trivial, _, rfl, htokensKnown _ List.mem_cons_self⟩
  | str | empty => exact ⟨trivial, trivial⟩
  | quote mark _ _ ih =>
      obtain ⟨hhere, hlater⟩ := List.forall_mem_cons.mp htokensKnown
      obtain ⟨hplaced, hspelled⟩ := ih hlater (index + 2)
      have hmarked : Known known (some mark) := ⟨mark, rfl, hhere⟩
      exact ⟨hmarked, trivial, hmarked, hplaced, hspelled, trivial⟩
  | list opened closed _ _ ih =>
      refine Value.sourced_list (htokensKnown _ List.mem_cons_self) ?_ ?_ index
      · intro piece hmem
        refine ih piece hmem fun token hinside => htokensKnown token ?_
        have hlisted := List.mem_flatMap.mpr ⟨piece, hmem, hinside⟩
        exact List.mem_cons_of_mem _ (List.mem_append_left _ hlisted)
      · exact fun _ => trivial
  | dotted opened point closed _ _ _ ih ihTail =>
      refine Value.sourced_list (htokensKnown _ List.mem_cons_self) ?_ ?_ index
      · intro piece hmem
        refine ih piece hmem fun token hinside => htokensKnown token ?_
        have hlisted := List.mem_flatMap.mpr ⟨piece, hmem, hinside⟩
        exact List.mem_cons_of_mem _ (List.mem_append_left _ hlisted)
      · intro index
        refine (ihTail (fun token hinside => htokensKnown token ?_) index).2
        simp [hinside]

end Forms

/-- Whether evaluating forms one after another in `scope` comes to the expansion
of a macro. -/
inductive FormsExpand (scope : ScopeId) : List Datum → Session Empty → Prop where
  | here {form : Datum} {forms : List Datum} {s : Session Empty}
      (hexpands : (Task.evaluate (.ofDatum s.batches form) scope).Expands
        { s with batches := s.batches + 1 }) :
      FormsExpand scope (form :: forms) s
  | later {form : Datum} {forms : List Datum} {s mid : Session Empty}
      {value : Value Empty}
      (hevaluated : Evaluates (.ofDatum s.batches form) scope
        { s with batches := s.batches + 1 } (.ok value) mid)
      (hexpands : FormsExpand scope forms mid) :
      FormsExpand scope (form :: forms) s

/-- Whether evaluating a source comes to the expansion of a macro. -/
def Source.Expands (source : Source) (s : Session Empty) : Prop :=
  ∃ forms, read source.text source.file = .ok forms ∧
    FormsExpand s.root forms s

section Evaluation

variable {known : Location → Prop} {steps : Nat} {s t : Session Empty}
  {answer : Answer Empty}

theorem FormsEvaluate.accounted {scope : ScopeId} {last : Value Empty}
    {forms : List Datum}
    (hevaluates : FormsEvaluate steps scope last forms s answer t)
    (hsound : s.Sound known) (hroom : s.depth < s.limit)
    (hsourced : ∀ form ∈ forms, ∀ batch,
      (Value.ofDatum batch form : Value Empty).Sourced known)
    (hplain : ¬ FormsExpand scope forms s) :
    t.Sound known ∧
      ∀ fault, answer = .error fault → Known known fault.place := by
  have haccount : ∀ {form : Datum} {s : Session Empty} reply {mid},
      evaluateForm steps scope form s = .ofAnswer reply mid →
      s.Sound known → s.depth < s.limit →
      (Value.ofDatum s.batches form : Value Empty).Sourced known →
      ¬ (Task.evaluate (.ofDatum s.batches form) scope).Expands
        { s with batches := s.batches + 1 } →
      Accounted known (.evaluate (.ofDatum s.batches form) scope)
        { s with batches := s.batches + 1 } reply mid ∧
        mid.depth < mid.limit := by
    intro form s reply mid hreached hsound hroom hsourced hplain
    obtain ⟨peak, hderived⟩ := evaluateForm_bigStep hreached
    refine ⟨hderived.accounted hsound hsourced hplain, ?_⟩
    rw [hderived.changes.depth_eq, hderived.changes.limit_eq]
    exact hroom
  induction hevaluates with
  | done => exact ⟨hsound, nofun⟩
  | @fails last form forms trouble s t hfailed =>
      obtain ⟨hfirst, -⟩ := haccount (.error trouble) hfailed hsound hroom
        (hsourced form List.mem_cons_self s.batches)
        fun hexpands => hplain (.here hexpands)
      refine ⟨hfirst.session, ?_⟩
      rintro _ ⟨⟩
      exact (hfirst.fault trouble rfl).2 hroom
  | @next last value form forms answer s mid t hevaluated _ ih =>
      obtain ⟨hfirst, hroomToo⟩ := haccount (.ok value) hevaluated hsound
        hroom (hsourced form List.mem_cons_self s.batches)
        fun hexpands => hplain (.here hexpands)
      refine ih hfirst.session hroomToo ?_ ?_
      · exact fun other hmem => hsourced other (List.mem_cons_of_mem form hmem)
      · exact fun hexpands => hplain (.later ⟨steps, hevaluated⟩ hexpands)

/-- A source whose evaluation expands no macro: what it leaves is sound, and
its faults are blamed on known places or where scanning it stops. -/
theorem evaluateSource_accounted {source : Source}
    (htokensKnown : ∀ p, source.TokenAt p → known p) (hsound : s.Sound known)
    (hroom : s.depth < s.limit) (hplain : ¬ source.Expands s)
    (hends : evaluateSource steps source.text source.file s =
      .ofAnswer answer t) :
    t.Sound known ∧ ∀ fault, answer = .error fault →
      ∃ place, fault.place = some place ∧
        (known place ∨ tokenize source.text source.file = .error fault ∧
          source.StopsAt place) := by
  cases hreads : read source.text source.file with
  | error trouble =>
      rw [evaluateSource_of_refused steps hreads] at hends
      cases answer with
      | ok value => cases hends
      | error fault =>
          cases hends
          refine ⟨hsound, ?_⟩
          rintro _ ⟨⟩
          obtain ⟨place, hblamed, htoken | hstops⟩ := Source.read_fault hreads
          · exact ⟨place, hblamed, .inl (htokensKnown place htoken)⟩
          · exact ⟨place, hblamed, .inr hstops⟩
  | ok forms =>
      rw [evaluateSource_of_read steps hreads] at hends
      obtain ⟨tokens, ⟨pieces, hspelled, rfl, rfl⟩, hshown⟩ :=
        Source.spellsAll hreads
      have hsourced : ∀ form ∈ pieces.map Prod.snd, ∀ batch,
          (Value.ofDatum batch form : Value Empty).Sourced known := by
        intro form hmem batch
        obtain ⟨piece, hinside, rfl⟩ := List.mem_map.mp hmem
        refine (hspelled piece hinside).sourced (fun token hwithin => ?_) batch 0
        exact htokensKnown _
          (hshown token (List.mem_flatMap.mpr ⟨piece, hinside, hwithin⟩))
      obtain ⟨hsoundAfter, hblamed⟩ :=
        (FormsEvaluate.of_evaluateForms hends).accounted hsound hroom hsourced
          fun hexpands => hplain ⟨_, hreads, hexpands⟩
      refine ⟨hsoundAfter, fun fault hfailed => ?_⟩
      obtain ⟨place, hhere, hknown⟩ := hblamed fault hfailed
      exact ⟨place, hhere, .inl hknown⟩

end Evaluation

/-- `Dialogue start sources s`: given the sources one after another, the session
`start` has come to `s`, however the evaluation of each of them ended, and no
macro was expanded on the way. -/
inductive Dialogue (start : Session Empty) :
    List Source → Session Empty → Prop where
  | silent : Dialogue start [] start
  | heard {sources : List Source} {source : Source} {steps : Nat}
      {s t : Session Empty} {answer : Answer Empty}
      (hbefore : Dialogue start sources s) (hplain : ¬ source.Expands s)
      (hends : evaluateSource steps source.text source.file s =
        .ofAnswer answer t) :
      Dialogue start (sources ++ [source]) t

/-- Whether a place is that of a token of one of some sources. -/
def TokenIn (sources : List Source) (place : Location) : Prop :=
  ∃ source ∈ sources, source.TokenAt place

theorem TokenIn.append (sources : List Source) (source : Source)
    (place : Location) (hshown : TokenIn sources place) :
    TokenIn (sources ++ [source]) place := by
  obtain ⟨earlier, hmem, htoken⟩ := hshown
  exact ⟨earlier, List.mem_append_left _ hmem, htoken⟩

theorem TokenIn.last (sources : List Source) (source : Source)
    (place : Location) (htoken : source.TokenAt place) :
    TokenIn (sources ++ [source]) place :=
  ⟨source, List.mem_append_right _ List.mem_cons_self, htoken⟩

theorem Session.fresh_sound (known : Location → Prop) (limit : Nat)
    (sink : Sink) (recording : Bool) :
    (Session.fresh limit sink recording : Session Empty).Sound known := by
  intro id name v hfound
  rcases Session.fresh_get?_cases hfound with ⟨op, rfl⟩ | rfl <;> trivial

/-- At every point of a dialogue the closures have bodies from its sources, and
there is room for one more evaluation. -/
theorem Dialogue.sound {limit : Nat} {sink : Sink} {recording : Bool}
    {sources : List Source} {s : Session Empty} (hroom : 1 ≤ limit)
    (hdialogue : Dialogue (.fresh limit sink recording) sources s) :
    s.Sound (TokenIn sources) ∧ s.depth < s.limit := by
  induction hdialogue with
  | silent => exact ⟨Session.fresh_sound _ limit sink recording, hroom⟩
  | @heard sources source steps s t answer _ hplain hends ih =>
      obtain ⟨hsound, hroom⟩ := ih
      have hsettled : (Request.source source.text source.file).session? steps
          s = some t := by
        rw [Request.session?, hends]
        cases answer <;> rfl
      have hchanges := Request.changes hsettled
      constructor
      · exact (evaluateSource_accounted (TokenIn.last sources source)
          (hsound.mono (TokenIn.append sources source)) hroom hplain hends).1
      · rw [hchanges.depth_eq, hchanges.limit_eq]
        exact hroom

/-- In a dialogue without macro expansions every fault, of reading or of
evaluation, is blamed on a place.  The place is that of a token of one of the
sources given so far, in its file; or the last source has no tokens, and the
place is where scanning it stopped. -/
theorem fault_blamed_on_source (limit : Nat) (sink : Sink) (recording : Bool)
    (hroom : 1 ≤ limit) (sources : List Source) (s : Session Empty)
    (hdialogue : Dialogue (.fresh limit sink recording) sources s)
    (source : Source) (hplain : ¬ source.Expands s) (steps : Nat)
    (fault : Fault) (t : Session Empty)
    (hfails : evaluateSource steps source.text source.file s = .fault fault t) :
    ∃ place, fault.place = some place ∧
      (TokenIn (sources ++ [source]) place ∨
        tokenize source.text source.file = .error fault ∧
          source.StopsAt place) := by
  obtain ⟨hsound, hroom⟩ := hdialogue.sound hroom
  have hsoundToo := hsound.mono (TokenIn.append sources source)
  have hends : evaluateSource steps source.text source.file s =
      .ofAnswer (.error fault) t := hfails
  exact (evaluateSource_accounted (TokenIn.last sources source) hsoundToo hroom
    hplain hends).2 fault rfl

/-- A string that is not closed. -/
def sampleScrap : Source := ⟨"\"ab", "one"⟩

/-- A call that is given what it cannot take apart. -/
def sampleCall : Source := ⟨"(car 1)", "two"⟩

theorem sampleScrap_plain (s : Session Empty) : ¬ sampleScrap.Expands s := by
  rintro ⟨forms, hreads, -⟩
  have hfails : read sampleScrap.text sampleScrap.file = .error
      { cause := .unterminatedString, place := some ⟨"one", 1, 1⟩ } := by cbv
  cases hfails.symm.trans hreads

/-- A name that has a value is bound to it. -/
theorem BigStep.lookup_of_ref {peak : Nat} {name : String}
    {place : Option Location} {scope : ScopeId} {s t : Session Empty}
    {value : Value Empty}
    (hevaluated : BigStep peak (.evaluate (.ref name place) scope) s
      (.ok value) t) : s.forest.lookup scope name = some value := by
  cases hevaluated with
  | deeper _ hinside =>
      cases hinside with
      | literal hplain => cases hplain
      | bound hfound => exact hfound
      | application hshape => cases hshape

theorem sampleCall_plain :
    ¬ sampleCall.Expands (.fresh 8 {} false) := by
  rintro ⟨forms, hreads, hexpands⟩
  have hspelled : read sampleCall.text sampleCall.file = .ok
      [.pair (.ref "car" (some ⟨"two", 1, 2⟩)) (.pair (.int 1) .nil none)
        (some ⟨"two", 1, 1⟩)] := by cbv
  have hcar : (Session.fresh 8 {} false).forest.lookup ⟨0⟩ "car" =
      some (.native (.builtin .car) : Value Empty) := by cbv
  obtain rfl := Except.ok.inj (hspelled.symm.trans hreads)
  cases hexpands with
  | later _ hexpands => cases hexpands
  | here hexpands =>
      rcases hexpands.cases with hexpansion | ⟨inner, mid, hsub, hexpands⟩
      · exact hexpansion
      cases hsub with
      | deeper =>
          rcases hexpands.cases with hexpansion | ⟨inner, mid, hsub, hexpands⟩
          · exact hexpansion
          cases hsub with
          | head hshape hproper =>
              cases hshape
              exact Task.not_expands_atom rfl hexpands
          | application hshape hproper hevaluated =>
              cases hshape
              cases hproper
              obtain rfl := Option.some.inj
                (hcar.symm.trans hevaluated.lookup_of_ref)
              rcases hexpands.cases with hexpansion | ⟨inner, mid, hsub, hexpands⟩
              · exact hexpansion
              cases hsub with
              | operands =>
                  rcases hexpands.cases with
                    hexpansion | ⟨inner, mid, hsub, hexpands⟩
                  · exact hexpansion
                  cases hsub with
                  | operand => exact Task.not_expands_atom rfl hexpands
                  | others =>
                      rcases hexpands.cases with hexpansion | ⟨_, _, hsub, -⟩
                      · exact hexpansion
                      · cases hsub

/-- After a source that could not be read, a call is blamed for its failure. -/
theorem sampleCall_blamed :
    ∃ fault t place,
      evaluateSource 9 sampleCall.text sampleCall.file
        (.fresh 8 {} false : Session Empty) = .fault fault t ∧
      fault.place = some place ∧
      (TokenIn [sampleScrap, sampleCall] place ∨
        tokenize sampleCall.text sampleCall.file = .error fault ∧
          sampleCall.StopsAt place) := by
  have hscrapped : evaluateSource 9 sampleScrap.text sampleScrap.file
      (.fresh 8 {} false) = .ofAnswer
        (.error { cause := .unterminatedString, place := some ⟨"one", 1, 1⟩ })
        (.fresh 8 {} false : Session Empty) := by cbv
  have hdialogue : Dialogue (.fresh 8 {} false) [sampleScrap]
      (.fresh 8 {} false) := .heard .silent (sampleScrap_plain _) hscrapped
  have hfails : evaluateSource 9 sampleCall.text sampleCall.file
      (.fresh 8 {} false) = .fault
        { cause := .pairExpected "int", place := some ⟨"two", 1, 1⟩ }
        { (.fresh 8 {} false : Session Empty) with batches := 1 } := by cbv
  obtain ⟨place, hblamed, hsource⟩ := fault_blamed_on_source 8 {} false
    (by decide) [sampleScrap] _ hdialogue sampleCall sampleCall_plain 9 _ _ hfails
  exact ⟨_, _, place, hfails, hblamed, hsource⟩

end Lisp
