import Lisp.Proofs.Conversation.Insertion
import Lisp.Repl

/-!
Conversations that are not disturbed.  Neither lines that ask for nothing that
concerns the session nor lines that fail disturb what follows, and nothing follows
the line that ends the conversation.
-/

namespace Lisp

/-- Lines as an input spells them. -/
def spelledLines (lines : List (List Char)) : String :=
  String.ofList (lines.flatMap fun line => line ++ ['\n'])

theorem linesFrom_append (read : List Char) {line : List Char}
    (hline : '\n' ∉ line) (rest : List Char) :
    linesFrom read (line ++ '\n' :: rest) =
      (read.reverse ++ line) :: linesFrom [] rest := by
  induction line generalizing read with
  | nil => rw [List.nil_append, linesFrom, if_pos rfl, List.append_nil]
  | cons c line ih =>
      rw [List.mem_cons, not_or] at hline
      rw [List.cons_append, linesFrom, if_neg (Ne.symm hline.1), ih _ hline.2]
      simp

/-- Lines without newlines in them are the lines of what they spell. -/
theorem inputLines_spelledLines {lines : List (List Char)}
    (hlines : ∀ line ∈ lines, '\n' ∉ line) :
    inputLines (spelledLines lines) = lines := by
  rw [inputLines, spelledLines, String.toList_ofList]
  induction lines with
  | nil => rfl
  | cons line lines ih =>
      obtain ⟨hline, hrest⟩ := List.forall_mem_cons.mp hlines
      rw [List.flatMap_cons, List.append_assoc, List.singleton_append,
        linesFrom_append [] hline, ih hrest]
      rfl

theorem not_mem_of_mem_linesFrom {read text line : List Char}
    (hread : '\n' ∉ read) (hmem : line ∈ linesFrom read text) :
    '\n' ∉ line := by
  induction text generalizing read with
  | nil =>
      rw [linesFrom] at hmem
      split at hmem
      · cases hmem
      · rw [List.mem_singleton.mp hmem, List.mem_reverse]
        exact hread
  | cons c text ih =>
      rw [linesFrom] at hmem
      split at hmem
      · rcases List.mem_cons.mp hmem with rfl | hmem
        · rwa [List.mem_reverse]
        · exact ih List.not_mem_nil hmem
      · next hother =>
          refine ih ?_ hmem
          rw [List.mem_cons, not_or]
          exact ⟨Ne.symm hother, hread⟩

/-- Whatever lines are put into an input, there is an input with these lines. -/
theorem Script.inputLines_lines {script : Script} {input : String}
    (hinput : script.kept = inputLines input)
    (hinserted : ∀ line, (true, line) ∈ script → '\n' ∉ line) :
    inputLines (spelledLines script.lines) = script.lines := by
  apply inputLines_spelledLines
  intro line hmem
  obtain ⟨⟨inserted, _⟩, hentry, rfl⟩ := List.mem_map.mp hmem
  cases inserted with
  | true => exact hinserted _ hentry
  | false =>
      have hkept : _ ∈ script.kept := List.mem_map.mpr
        ⟨_, List.mem_filter.mpr ⟨hentry, rfl⟩, rfl⟩
      rw [hinput] at hkept
      exact not_mem_of_mem_linesFrom List.not_mem_nil hkept

section Failures

variable {steps : Nat} {scope : ScopeId} {s t : Session Empty} {fault : Fault}

/-- When one of some forms fails, those before it have been evaluated and those
after it have not. -/
theorem FormsEvaluate.before_fault {last : Value Empty} {forms : List Datum}
    {answer : Answer Empty}
    (hevaluates : FormsEvaluate steps scope last forms s answer t)
    (hfails : answer = .error fault) :
    ∃ before form after value mid, forms = before ++ form :: after ∧
      before.foldlM (fun _ form => evaluateForm steps scope form) last s =
        .value value mid ∧
      evaluateForm steps scope form mid = .fault fault t := by
  induction hevaluates with
  | done => cases hfails
  | @fails last form forms trouble s t hfailed =>
      cases hfails
      exact ⟨[], form, forms, last, s, rfl, rfl, hfailed⟩
  | @next last value form forms answer s mid t hevaluated _ ih =>
      obtain ⟨before, failing, after, result, reached, rfl, hbefore,
        hfailing⟩ := ih hfails
      refine ⟨form :: before, failing, after, result, reached, rfl, ?_,
        hfailing⟩
      rw [List.foldlM_cons, Eval.bind_apply, hevaluated]
      exact hbefore

/-- A form that fails keeps what there was before it. -/
theorem evaluateForm_keeps {form : Datum}
    (hfails : evaluateForm steps scope form s = .fault fault t) :
    s.Keeps t := by
  have hends : evaluateForm steps scope form s = .ofAnswer (.error fault) t :=
    hfails
  obtain ⟨peak, hderived⟩ := evaluateForm_bigStep hends
  have hnumbered : Changes s { s with batches := s.batches + 1 } :=
    .single .numbers
  exact Changes.keeps (hnumbered.trans hderived.changes)

/-- What a line that fails leaves: nothing is changed if it could not be read;
otherwise all forms before the one that failed have been evaluated, and what they
have done is kept. -/
def FailsKeeping (steps : Nat) (repl : Repl) (text : String) (fault : Fault)
    (t : Session Empty) : Prop :=
  (read text (inputFile (repl.lines + 1)) = .error fault ∧
    t = repl.session) ∨
  ∃ before form after value mid,
    read text (inputFile (repl.lines + 1)) = .ok (before ++ form :: after) ∧
    evaluateForms steps repl.session.root before repl.session =
      .value value mid ∧
    evaluateForm steps repl.session.root form mid = .fault fault t ∧
    mid.Keeps t

theorem FailsKeeping.of_evaluateSource {repl : Repl} {text : String}
    (hfails : evaluateSource steps text (inputFile (repl.lines + 1))
      repl.session = .fault fault t) :
    FailsKeeping steps repl text fault t := by
  cases hread : read text (inputFile (repl.lines + 1)) with
  | ok forms =>
      rw [evaluateSource_of_read steps hread] at hfails
      have hends : evaluateForms steps repl.session.root forms repl.session =
          .ofAnswer (.error fault) t := hfails
      obtain ⟨before, form, after, value, mid, rfl, hbefore, hform⟩ :=
        (FormsEvaluate.of_evaluateForms hends).before_fault rfl
      exact .inr ⟨before, form, after, value, mid, hread, hbefore, hform,
        evaluateForm_keeps hform⟩
  | error trouble =>
      rw [evaluateSource_of_refused steps hread] at hfails
      cases hfails
      exact .inl ⟨hread, rfl⟩

/-- A line that fails does not end the loop. -/
theorem Repl.next?_of_fault [LineEditor] {repl : Repl} {line : List Char}
    (hfails : (repl.respond steps line).ending = .error fault) :
    ∃ text t, Entry.ofLine line = .source text ∧
      repl.next? steps line = some ⟨t.drain, repl.lines + 1⟩ ∧
      (repl.respond steps line).displayed = t.output ∧
      FailsKeeping steps repl text fault t := by
  unfold respond at hfails ⊢
  cases hentry : Entry.ofLine line with
  | blank | help | environment | quit =>
      rw [hentry] at hfails
      cases hfails
  | source text =>
      rw [hentry] at hfails
      dsimp only at hfails ⊢
      rw [next?_source hentry]
      cases hends : evaluateSource steps text (inputFile (repl.lines + 1))
          repl.session with
      | value value t =>
          rw [hends] at hfails
          cases hfails
      | unfinished =>
          rw [hends] at hfails
          cases hfails
      | fault trouble t =>
          rw [hends] at hfails
          cases hfails
          exact ⟨text, t, rfl, rfl, rfl, .of_evaluateSource hends⟩

end Failures

section Counting

variable [LineEditor] {steps : Nat} {repl next : Repl}

theorem Repl.lines_le_of_next? {line : List Char}
    (hnext : repl.next? steps line = some next) :
    next.lines ≤ repl.lines + 1 := by
  cases hentry : Entry.ofLine line with
  | blank =>
      simp only [next?, answer, hentry, Option.some.injEq] at hnext
      exact hnext ▸ Nat.le_succ _
  | help | environment =>
      simp only [next?, answer, hentry, Option.some.injEq] at hnext
      exact hnext ▸ Nat.le_refl _
  | quit => simp [next?, answer, hentry] at hnext
  | source text =>
      rw [next?_source hentry, Option.map_eq_some_iff] at hnext
      obtain ⟨t, -, rfl⟩ := hnext
      exact Nat.le_refl _

/-- Every line adds at most one to the count. -/
theorem Repl.lines_le {lines : List (List Char)}
    (hlines : lines.foldlM (Repl.next? steps) repl = some next) :
    next.lines ≤ repl.lines + lines.length := by
  induction lines generalizing repl with
  | nil =>
      obtain rfl := Option.some.inj hlines
      exact Nat.le_refl _
  | cons line lines ih =>
      obtain ⟨mid, hfirst, hrest⟩ := Option.bind_eq_some_iff.mp hlines
      have hcount := Repl.lines_le_of_next? hfirst
      have hcounts := ih hrest
      rw [List.length_cons]
      omega

end Counting

/-- A conversation is what its responses say.  Lines that ask for nothing that
concerns the session can be put in anywhere: the others are answered as before, but
that a place in one of them names it by its number among all.  A line that fails is
followed by the next with what was done before it failed, and a line that ends the
conversation is followed by nothing.  The numbers of the lines of an input are below
`2 ^ 31` if it has fewer lines than that. -/
theorem conversation_undisturbed [LineEditor] (steps : Nat) :
    (∀ input, Repl.transcript steps input = Repl.greeting ++ String.join
      ((Repl.start.responses steps (inputLines input)).map
        fun response => Repl.prompt ++ response.text)) ∧
    (∀ (input : String) (script : Script), script.kept = inputLines input →
      (∀ line, (true, line) ∈ script →
        '\n' ∉ line ∧ (Entry.ofLine line).isIdle = true) →
      inputLines (spelledLines script.lines) = script.lines ∧
      (∀ longer, inputLines longer = script.lines →
        script.keptOf (Repl.start.responses steps (inputLines longer)) =
          (Repl.start.responses steps (inputLines input)).map
            (Response.renumbered script.renumber)) ∧
      ∀ before line after, script = before ++ (false, line) :: after →
        isNumbered line = true → ∀ row column,
          let number :=
            before.countP (fun entry => !entry.1 && isNumbered entry.2) + 1
          (Relocation.renumbering script.renumber).place
              (some ⟨inputFile number, row, column⟩) =
            some ⟨inputFile (number +
              before.countP fun entry => entry.1 && isNumbered entry.2),
                row, column⟩) ∧
    (∀ (repl : Repl) (line : List Char) (fault : Fault),
      (repl.respond steps line).ending = .error fault →
      ∃ text t, Entry.ofLine line = .source text ∧
        repl.next? steps line = some ⟨t.drain, repl.lines + 1⟩ ∧
        (repl.respond steps line).displayed = t.output ∧
        FailsKeeping steps repl text fault t) ∧
    (∀ (repl : Repl) (printed : String) (before : List (List Char)) line,
      Entry.ofLine line = .quit → ∀ after,
        repl.responses steps (before ++ line :: after) =
          repl.responses steps (before ++ [line]) ∧
        repl.converse steps printed (before ++ line :: after) =
          repl.converse steps printed (before ++ [line])) ∧
    ∀ (input : String) (before : List (List Char)) line after,
      inputLines input = before ++ line :: after →
      (inputLines input).length < 2 ^ 31 → ∀ repl,
        before.foldlM (Repl.next? steps) Repl.start = some repl →
        repl.lines + 1 < 2 ^ 31 := by
  refine ⟨?_, ?_, fun repl line fault => Repl.next?_of_fault, ?_, ?_⟩
  · intro input
    exact Repl.converse_eq_join steps Repl.greeting Repl.start (inputLines input)
  · intro input script hinput hinserted
    refine ⟨Script.inputLines_lines hinput fun line hmem => (hinserted line hmem).1,
      ?_, ?_⟩
    · intro longer hlonger
      rw [hlonger, ← hinput]
      exact (Repl.Padded.start script).responses_eq
        (fun line hmem => (hinserted line hmem).2) steps
    · rintro before line after rfl hnumbered row column
      exact Script.place_renumber before after hnumbered row column
  · intro repl printed before line hquit after
    have hsame := repl.responses_append_of_quit steps before hquit after
    refine ⟨hsame, ?_⟩
    rw [Repl.converse_eq_join, Repl.converse_eq_join, hsame]
  · intro input before line after hinput hshort repl hrepl
    have hcount := Repl.lines_le hrepl
    have hnone : Repl.start.lines = 0 := rfl
    simp only [hinput, List.length_append, List.length_cons] at hshort
    omega

/-- A command before one line, and a command and a blank line before the next. -/
def sampleScript : Script :=
  [(true, ":env".toList), (false, "(define f (lambda () (car 1)))".toList),
    (true, ":help".toList), (true, []), (false, "(f)".toList),
    (false, ":quit".toList)]

/-- The fault in the body of the procedure is in the line that is now the second. -/
theorem sampleScript_undisturbed :
    (sampleScript.keptOf (Repl.start.responses 20
        (inputLines (spelledLines sampleScript.lines)))).map Response.text =
      ["", "Error: TypeMismatch: Expected cons, got int\n" ++
        "  At <<input 2>: line 1, column 22>\n", "Goodbye!\n"] ∧
    (∃ next, Repl.start.next? 20 "(car 1)".toList = some next ∧
      next.lines = 1) ∧
    Repl.start.responses 20 [":exit".toList, "(car 1)".toList] =
      Repl.start.responses 20 [":exit".toList] := by
  obtain ⟨-, hinserting, hfailing, hquitting, -⟩ := conversation_undisturbed 20
  refine ⟨?_, ?_, ?_⟩
  · have hkept : sampleScript.kept =
        inputLines (spelledLines sampleScript.kept) := by decide +kernel
    have hidle : ∀ entry ∈ sampleScript, entry.1 = true →
        '\n' ∉ entry.2 ∧ (Entry.ofLine entry.2).isIdle = true := by
      decide +kernel
    obtain ⟨hlines, hanswers, -⟩ := hinserting _ sampleScript hkept
      fun line hmem => hidle (true, line) hmem rfl
    rw [hanswers _ hlines, ← hkept]
    decide +kernel
  · have hfails : (Repl.start.respond 20 "(car 1)".toList).ending =
        .error ⟨.pairExpected "int", some ⟨"<input 1>", 1, 1⟩⟩ := by
      decide +kernel
    obtain ⟨text, t, -, hnext, -⟩ := hfailing _ _ _ hfails
    exact ⟨_, hnext, rfl⟩
  · have hquit : Entry.ofLine ":exit".toList = .quit := by decide +kernel
    exact (hquitting Repl.start "" [] _ hquit ["(car 1)".toList]).1

end Lisp
