import Lisp.Proofs.Conversation.Numbering

/-!
Conversations with lines put in.  Blank lines and the commands that ask for help
or for the bindings leave a session alone; all they do is number the lines after
them anew.  So the other lines are answered as they would be without, but for the
numbers of lines in the places of faults.
-/

namespace Lisp

/-- The answer to a line in its parts: what the line displays, and what is printed
after that or the fault that is reported. -/
structure Response where
  displayed : String
  ending : Except Fault String

/-- A response as it is printed. -/
def Response.text (response : Response) : String :=
  response.displayed ++
    match response.ending with
    | .ok printed => printed
    | .error fault => "Error: " ++ fault.text ++ "\n"

/-- The same response with the lines in places numbered anew. -/
def Response.renumbered (shift : Nat → Nat) (response : Response) : Response where
  displayed := response.displayed
  ending := response.ending.mapError (Fault.relocated (.renumbering shift))

/-- What a line that has been evaluated is answered. -/
def Response.ofOutcome : Outcome Empty (Value Empty) → Response
  | .value value t => ⟨t.output, .ok (Repl.echo value)⟩
  | .fault fault t => ⟨t.output, .error fault⟩
  | .unfinished => ⟨"", .ok ""⟩

section Responses

variable [LineEditor]

namespace Repl

/-- The response to a line. -/
def respond (steps : Nat) (repl : Repl) (line : List Char) : Response :=
  match Entry.ofLine line with
  | .blank => ⟨"", .ok ""⟩
  | .help => ⟨"", .ok helpText⟩
  | .environment =>
      ⟨"", .ok
        (environmentText (repl.session.forest.visible repl.session.root))⟩
  | .quit => ⟨"", .ok farewell⟩
  | .source text =>
      .ofOutcome
        (evaluateSource steps text (inputFile (repl.lines + 1)) repl.session)

/-- The loop after a line, if it goes on. -/
def next? (steps : Nat) (repl : Repl) (line : List Char) : Option Repl :=
  (repl.answer steps line).next

/-- The responses to lines, up to one that ends the loop, and the farewell if none
does. -/
def responses (steps : Nat) (repl : Repl) :
    List (List Char) → List Response
  | [] => [⟨"", .ok farewell⟩]
  | line :: lines =>
      repl.respond steps line ::
        match repl.next? steps line with
        | some next => next.responses steps lines
        | none => []

theorem answer_text (steps : Nat) (repl : Repl) (line : List Char) :
    (repl.answer steps line).text = (repl.respond steps line).text := by
  unfold answer respond
  cases Entry.ofLine line with
  | blank | help | environment | quit => exact String.empty_append.symm
  | source text =>
      simp only [evaluateLine, inputFile]
      cases evaluateSource steps text _ repl.session with
      | value value t => rfl
      | fault fault t =>
          simp only [Response.ofOutcome, Response.text, String.append_assoc]
      | unfinished => rfl

/-- After a line that has been evaluated, with success or without, the loop goes
on with the session that is left. -/
theorem next?_source {line : List Char} {text : String}
    (hentry : Entry.ofLine line = .source text) (steps : Nat) (repl : Repl) :
    repl.next? steps line =
      (evaluateSource steps text (inputFile (repl.lines + 1))
        repl.session).session?.map fun t => ⟨t.drain, repl.lines + 1⟩ := by
  simp only [next?, answer, hentry, evaluateLine]
  rw [← inputFile]
  cases evaluateSource steps text _ repl.session <;> rfl

/-- A conversation consists of the prompts and the responses. -/
theorem converse_eq_join (steps : Nat) (printed : String) (repl : Repl)
    (lines : List (List Char)) :
    repl.converse steps printed lines = printed ++ String.join
      ((repl.responses steps lines).map fun r => prompt ++ r.text) := by
  induction lines generalizing printed repl with
  | nil =>
      simp [converse, responses, Response.text, String.join_cons,
        String.append_assoc]
  | cons line lines ih =>
      rw [converse, responses, List.map_cons, String.join_cons, ← answer_text,
        next?]
      cases repl.answer steps line with
      | mk text next =>
          cases next with
          | some next => simp only [ih, String.append_assoc]
          | none => simp [String.append_assoc]

/-- What follows a line that ends the loop makes no difference. -/
theorem responses_append_of_quit (steps : Nat) (repl : Repl)
    (before : List (List Char)) {line : List Char}
    (hquit : Entry.ofLine line = .quit) (after : List (List Char)) :
    repl.responses steps (before ++ line :: after) =
      repl.responses steps (before ++ [line]) := by
  induction before generalizing repl with
  | nil =>
      have hends : repl.next? steps line = none := by
        rw [next?, answer, hquit]
      rw [List.nil_append, List.nil_append, responses, responses, hends]
  | cons first before ih =>
      rw [List.cons_append, List.cons_append, responses, responses]
      cases repl.next? steps first with
      | some next => exact congrArg (_ :: ·) (ih next)
      | none => rfl

end Repl

end Responses

/-- What asks for nothing that concerns the session. -/
def Entry.isIdle : Entry → Bool
  | .blank | .help | .environment => true
  | .quit | .source _ => false

/-- Whether a line has a number: blank lines have none. -/
def isNumbered [LineEditor] (line : List Char) : Bool :=
  decide (Entry.ofLine line ≠ .blank)

/-- Lines of a conversation, each with whether it has been put in. -/
abbrev Script : Type :=
  List (Bool × List Char)

namespace Script

/-- All lines of a script. -/
def lines (script : Script) : List (List Char) :=
  script.map Prod.snd

/-- The lines of a script that have not been put in. -/
def kept (script : Script) : List (List Char) :=
  (script.filter fun entry => !entry.1).map Prod.snd

/-- Of what belongs to the lines of a script in turn, what belongs to those that
have not been put in, and what comes after all of them. -/
def keptOf {α : Type} : Script → List α → List α
  | [], items => items
  | _ :: _, [] => []
  | (true, _) :: script, _ :: items => keptOf script items
  | (false, _) :: script, item :: items => item :: keptOf script items

section Renumbering

variable [LineEditor]

/-- How many lines with a number have been put in before the line that has a given
number without them. -/
def insertedBefore : Script → Nat → Nat
  | [], _ | _ :: _, 0 => 0
  | (true, line) :: script, number + 1 =>
      (if isNumbered line then 1 else 0) + insertedBefore script (number + 1)
  | (false, line) :: script, number + 1 =>
      insertedBefore script (if isNumbered line then number else number + 1)

/-- The number that a line has among all lines, given the one it has without those
put in. -/
def renumber (script : Script) (number : Nat) : Nat :=
  number + script.insertedBefore number

/-- A line has one number more than there are lines with a number before it. -/
theorem insertedBefore_eq_countP (before after : Script) {line : List Char}
    (hnumbered : isNumbered line = true) :
    insertedBefore (before ++ (false, line) :: after)
        (before.countP (fun entry => !entry.1 && isNumbered entry.2) + 1) =
      before.countP fun entry => entry.1 && isNumbered entry.2 := by
  induction before with
  | nil =>
      rw [List.nil_append, List.countP_nil, List.countP_nil, insertedBefore,
        if_pos hnumbered]
      cases after <;> rfl
  | cons entry before ih =>
      obtain ⟨inserted, other⟩ := entry
      cases inserted with
      | true =>
          rw [List.cons_append, List.countP_cons, List.countP_cons]
          simp only [Bool.not_true, Bool.false_and, Bool.true_and,
            Bool.false_eq_true, if_false, Nat.add_zero, insertedBefore, ih]
          exact Nat.add_comm _ _
      | false =>
          rw [List.cons_append, List.countP_cons, List.countP_cons]
          simp only [Bool.not_false, Bool.false_and, Bool.true_and,
            Bool.false_eq_true, if_false, Nat.add_zero, insertedBefore]
          cases isNumbered other with
          | true => exact ih
          | false => exact ih

/-- A place in a line is afterwards in the line with the number that is greater by
the number of lines with a number put in before it. -/
theorem place_renumber (before after : Script) {line : List Char}
    (hnumbered : isNumbered line = true) (row column : Nat) :
    let number := before.countP (fun entry => !entry.1 && isNumbered entry.2) + 1
    (Relocation.renumbering (renumber (before ++ (false, line) :: after))).place
        (some ⟨inputFile number, row, column⟩) =
      some ⟨inputFile (number +
        before.countP fun entry => entry.1 && isNumbered entry.2), row, column⟩ := by
  dsimp only
  rw [Relocation.renumbering_inputFile, renumber,
    insertedBefore_eq_countP before after hnumbered]

end Renumbering

end Script

theorem environmentText_relocated (m : Relocation)
    (entries : List (String × Value Empty)) :
    Repl.environmentText
        (entries.map fun entry => (entry.1, entry.2.relocated m)) =
      Repl.environmentText entries := by
  have hnative : ∀ entry : String × Value Empty,
      Repl.nativeName? (entry.1, entry.2.relocated m) =
        Repl.nativeName? entry := by
    rintro ⟨name, value⟩
    cases value <;> rfl
  simp only [Repl.environmentText, List.map_eq_nil_iff, List.length_map,
    List.filterMap_map, List.filter_map, Function.comp_def, hnative,
    List.map_map, Value.text_relocated]

theorem echo_relocated (m : Relocation) (value : Value Empty) :
    Repl.echo (value.relocated m) = Repl.echo value := by
  rw [Repl.echo, Repl.echo, Value.text_relocated]
  cases value <;> rfl

theorem Response.ofOutcome_renumbered (shift : Nat → Nat)
    (outcome : Outcome Empty (Value Empty)) :
    Response.ofOutcome (outcome.relocated (.renumbering shift)
        (Value.relocated (.renumbering shift))) =
      (Response.ofOutcome outcome).renumbered shift := by
  cases outcome with
  | value value t =>
      simp only [Outcome.relocated, ofOutcome, echo_relocated]
      rfl
  | fault fault t => rfl
  | unfinished => rfl

/-- A loop that has read the lines put in as well: its session is the same but for
the numbers of lines in places, and it has counted the lines that `rest` leaves
out. -/
structure Repl.Padded [LineEditor] (shift : Nat → Nat) (rest : Script)
    (repl padded : Repl) : Prop where
  session : padded.session = repl.session.relocated (.renumbering shift)
  numbers : ∀ number, shift (repl.lines + (number + 1)) =
    padded.lines + (number + 1) + rest.insertedBefore (number + 1)

section Padded

variable [LineEditor] {shift : Nat → Nat} {script : Script}
  {line : List Char} {repl padded : Repl} {steps : Nat}

/-- The loop after a line that asks for nothing that concerns the session. -/
theorem Repl.next?_idle (hidle : (Entry.ofLine line).isIdle = true)
    (repl : Repl) (steps : Nat) :
    repl.next? steps line = some
      ⟨repl.session, repl.lines + if isNumbered line then 1 else 0⟩ := by
  unfold next? answer isNumbered
  cases hentry : Entry.ofLine line with
  | blank | help | environment => rfl
  | quit | source =>
      rw [hentry] at hidle
      cases hidle

/-- A line that is put in leaves the loop as it was, but for its count. -/
theorem Repl.Padded.inserted
    (hpadded : repl.Padded shift ((true, line) :: script) padded)
    (hidle : (Entry.ofLine line).isIdle = true) (steps : Nat) :
    ∃ next, padded.next? steps line = some next ∧
      repl.Padded shift script next := by
  refine ⟨_, Repl.next?_idle hidle padded steps, hpadded.session, ?_⟩
  intro number
  have hnumbers := hpadded.numbers number
  rw [Script.insertedBefore] at hnumbers
  dsimp only
  omega

/-- A loop that has read nothing, before any of the lines put in. -/
theorem Repl.Padded.start (script : Script) :
    Repl.Padded script.renumber script Repl.start Repl.start := by
  refine ⟨(Session.relocated_fresh _ _ _).symm, fun number => ?_⟩
  have hnone : Repl.start.lines = 0 := rfl
  rw [Script.renumber, hnone, Nat.zero_add]

/-- A line that is kept is evaluated in the padded loop as it is without the
padding. -/
theorem Repl.Padded.evaluated
    (hpadded : repl.Padded shift ((false, line) :: script) padded)
    (hnumbered : isNumbered line = true) (text : String) :
    evaluateSource steps text (inputFile (padded.lines + 1)) padded.session =
      (evaluateSource steps text (inputFile (repl.lines + 1))
        repl.session).relocated (.renumbering shift)
          (Value.relocated (.renumbering shift)) := by
  have hnumber := hpadded.numbers 0
  rw [Script.insertedBefore, if_pos hnumbered] at hnumber
  have hnone : script.insertedBefore 0 = 0 := by cases script <;> rfl
  rw [hnone] at hnumber
  have hfile : renumberedFile shift (inputFile (repl.lines + 1)) =
      inputFile (padded.lines + 1) := by
    rw [renumberedFile_inputFile, hnumber]
  rw [← hfile, hpadded.session]
  exact evaluateSource_renamed (renumberedFile shift) steps text _ _

/-- Without a number the line does not count, and with one it counts in both
loops. -/
theorem Repl.Padded.advance {t : Session Empty}
    (hpadded : repl.Padded shift ((false, line) :: script) padded) :
    Repl.Padded shift script
      ⟨t, repl.lines + if isNumbered line then 1 else 0⟩
      ⟨t.relocated (.renumbering shift),
        padded.lines + if isNumbered line then 1 else 0⟩ := by
  refine ⟨rfl, fun number => ?_⟩
  cases hnumbered : isNumbered line with
  | true =>
      have hnumbers := hpadded.numbers (number + 1)
      rw [Script.insertedBefore, if_pos hnumbered] at hnumbers
      simp only [if_true]
      rw [Nat.add_assoc, Nat.add_comm 1, hnumbers]
      omega
  | false =>
      have hnumbers := hpadded.numbers number
      rw [Script.insertedBefore, hnumbered] at hnumbers
      exact hnumbers

theorem isNumbered_of_source {text : String}
    (hentry : Entry.ofLine line = .source text) : isNumbered line = true := by
  rw [isNumbered, hentry]
  rfl

/-- A line that is kept is answered alike. -/
theorem Repl.Padded.respond_eq
    (hpadded : repl.Padded shift ((false, line) :: script) padded)
    (steps : Nat) :
    padded.respond steps line =
      (repl.respond steps line).renumbered shift := by
  unfold respond
  cases hentry : Entry.ofLine line with
  | blank | help | quit => rfl
  | environment =>
      have hvisible : padded.session.forest.visible padded.session.root =
          (repl.session.forest.visible repl.session.root).map fun entry =>
            (entry.1, entry.2.relocated (.renumbering shift)) := by
        rw [hpadded.session]
        exact repl.session.forest.visible_relocated repl.session.root
      dsimp only
      rw [hvisible, environmentText_relocated]
      rfl
  | source text =>
      dsimp only
      rw [hpadded.evaluated (isNumbered_of_source hentry) text,
        Response.ofOutcome_renumbered]

/-- After a line that is kept both loops go on alike. -/
theorem Repl.Padded.next?_cases
    (hpadded : repl.Padded shift ((false, line) :: script) padded)
    (steps : Nat) :
    (repl.next? steps line = none ∧ padded.next? steps line = none) ∨
      ∃ next paddedNext, repl.next? steps line = some next ∧
        padded.next? steps line = some paddedNext ∧
        next.Padded shift script paddedNext := by
  by_cases hidle : (Entry.ofLine line).isIdle = true
  · refine .inr ⟨_, _, Repl.next?_idle hidle repl steps,
      Repl.next?_idle hidle padded steps, ?_⟩
    rw [hpadded.session]
    exact hpadded.advance
  cases hentry : Entry.ofLine line with
  | blank | help | environment =>
      rw [hentry] at hidle
      exact absurd rfl hidle
  | quit =>
      have hnone : ∀ repl : Repl, repl.next? steps line = none := by
        intro repl
        rw [next?, answer, hentry]
      exact .inl ⟨hnone repl, hnone padded⟩
  | source text =>
      have hnumbered := isNumbered_of_source hentry
      have hnext : ∀ t : Session Empty, Repl.Padded shift script
          ⟨t.drain, repl.lines + 1⟩
          ⟨(t.relocated (.renumbering shift)).drain, padded.lines + 1⟩ := by
        intro t
        have hadvance := hpadded.advance (t := t.drain)
        rw [hnumbered] at hadvance
        exact hadvance
      rw [next?_source hentry, next?_source hentry,
        hpadded.evaluated hnumbered text]
      cases evaluateSource steps text _ repl.session with
      | value value t => exact .inr ⟨_, _, rfl, rfl, hnext t⟩
      | fault fault t => exact .inr ⟨_, _, rfl, rfl, hnext t⟩
      | unfinished => exact .inl ⟨rfl, rfl⟩

/-- However many lines are put in, those that are kept are answered as they would
be without them, but for the numbers of lines in places. -/
theorem Repl.Padded.responses_eq
    (hpadded : repl.Padded shift script padded)
    (hidle : ∀ line, (true, line) ∈ script → (Entry.ofLine line).isIdle = true)
    (steps : Nat) :
    script.keptOf (padded.responses steps script.lines) =
      (repl.responses steps script.kept).map (Response.renumbered shift) := by
  induction script generalizing repl padded with
  | nil => rfl
  | cons entry script ih =>
      obtain ⟨inserted, line⟩ := entry
      obtain ⟨hhere, hlater⟩ : ((true, line) = (inserted, line) →
          (Entry.ofLine line).isIdle = true) ∧ ∀ other,
            (true, other) ∈ script → (Entry.ofLine other).isIdle = true :=
        ⟨fun hsame => hidle line (hsame ▸ List.mem_cons_self),
          fun other hmem => hidle other (List.mem_cons_of_mem _ hmem)⟩
      cases inserted with
      | true =>
          obtain ⟨next, hnext, hgoes⟩ := hpadded.inserted (hhere rfl) steps
          have hlines : Script.lines ((true, line) :: script) =
              line :: Script.lines script := rfl
          have hkept : Script.kept ((true, line) :: script) =
              Script.kept script := rfl
          rw [hlines, hkept, responses, hnext, Script.keptOf]
          exact ih hgoes hlater
      | false =>
          have hlines : Script.lines ((false, line) :: script) =
              line :: Script.lines script := rfl
          have hkept : Script.kept ((false, line) :: script) =
              line :: Script.kept script := rfl
          rw [hlines, hkept, responses, responses, Script.keptOf,
            List.map_cons, hpadded.respond_eq]
          congr 1
          obtain ⟨hends, hendsToo⟩ | ⟨next, other, hnext, hother, hgoes⟩ :=
            hpadded.next?_cases steps
          · rw [hends, hendsToo]
            cases script with
            | nil => rfl
            | cons entry script =>
                obtain ⟨inserted, other⟩ := entry
                cases inserted <;> rfl
          · rw [hnext, hother]
            exact ih hgoes hlater

end Padded

end Lisp
