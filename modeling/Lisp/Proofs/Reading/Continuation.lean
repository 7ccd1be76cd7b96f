import Lisp.Proofs.Reading.Recognition

/-!
Reading on.  Forms that have been read stay read, and a token that does not fit
does not fit whatever comes after it.  Only tokens that end too early, inside a
list or after a quotation mark, leave open what they spell; and a list that is
still open can always be closed.
-/

namespace Lisp

/-- Whether a cause says that a token does not fit where it stands. -/
def Cause.Misfit (cause : Cause) : Prop :=
  cause.kind = .invalidEscape ∨
    cause ∈ [.nestingTooDeep maxNesting, .strayClose, .strayDot,
      .dotBeforeElement, .dotWithoutTail, .elementAfterTail]

theorem Cause.Misfit.kind_ne {cause : Cause} (hmisfit : cause.Misfit) :
    cause.kind ≠ .unclosedParenthesis := by
  rcases hmisfit with hescape | hlisted
  · rw [hescape]
    decide
  · revert cause
    decide

theorem Reader.enter_misfit {reader : Reader} {token : Token} {fault : Fault}
    (hfails : reader.enter token = .error fault) : fault.cause.Misfit := by
  unfold Reader.enter at hfails
  split at hfails
  · cases hfails
    exact .inr (by simp)
  · split at hfails
    · cases hfails
    · cases hfails
      exact .inr (by simp)
    · cases hfails
    · split at hfails
      · cases hfails
      · next cause hundecodable =>
          cases hfails
          exact .inl (Quoted.decodeFrom_fault hundecodable)
    · split at hfails
      · cases hfails
        exact .inr (by simp)
      · cases hfails

theorem Reader.step_misfit {reader : Reader} {token : Token} {fault : Fault}
    (hfails : reader.step token = .error fault) : fault.cause.Misfit := by
  unfold Reader.step at hfails
  split at hfails
  · split_ifs at hfails
    cases hfails
    exact .inr (by simp)
  · split at hfails
    · split_ifs at hfails
      · cases hfails
        exact .inr (by simp)
      · exact enter_misfit hfails
    · split_ifs at hfails
      · cases hfails
        exact .inr (by simp)
      · exact enter_misfit hfails
    · exact enter_misfit hfails

theorem foldlM_step_misfit {reader : Reader} {tokens : List Token}
    {fault : Fault}
    (hfails : tokens.foldlM Reader.step reader = .error fault) :
    fault.cause.Misfit := by
  obtain ⟨token, -, next, hstep⟩ := foldlM_step_stops hfails
  exact Reader.step_misfit hstep

/-- At the end only what is still open can be wrong. -/
theorem Reader.finish_cause {reader : Reader} {fault : Fault}
    (hfails : reader.finish = .error fault) :
    fault.cause = .unclosedList ∨ fault.cause = .nothingToQuote := by
  unfold finish at hfails
  split at hfails
  · cases hfails
    exact .inl rfl
  · cases hfails
  · cases hfails
    exact .inl rfl
  · cases hfails
    exact .inl rfl
  · cases hfails
    exact .inr rfl

/-- The same reader with more forms completed before all others. -/
def Reader.after (reader : Reader) (earlier : List Datum) : Reader :=
  { reader with forms := reader.forms ++ earlier }

section After

variable (earlier : List Datum)

theorem Reader.deliver_after (forms : List Datum) (form : Datum)
    (stack : List Frame) :
    deliver (forms ++ earlier) form stack =
      (deliver forms form stack).after earlier := by
  induction stack generalizing form with
  | nil => rfl
  | cons frame stack ih =>
      cases frame with
      | list opened items => rfl
      | dotted opened items => rfl
      | quote mark => exact ih (.quoted mark form)

theorem Reader.enter_after (reader : Reader) (token : Token) :
    (reader.after earlier).enter token =
      (reader.enter token).map (Reader.after · earlier) := by
  obtain ⟨forms, stack, ending⟩ := reader
  obtain ⟨kind, place⟩ := token
  by_cases hdeep : maxNesting ≤ stack.length
  · simp only [enter, after, hdeep, if_true, Except.map]
  · simp only [enter, after, hdeep, if_false]
    cases kind with
    | opening | closing | quote => rfl
    | str body =>
        dsimp only
        cases Quoted.decode body with
        | ok s => exact congrArg Except.ok (deliver_after earlier ..)
        | error cause => rfl
    | atom text =>
        by_cases hpoint : text = "."
        · simp only [hpoint, if_true, Except.map]
        · simp only [hpoint, if_false]
          exact congrArg Except.ok (deliver_after earlier ..)

/-- Reading a token does not look at the forms completed before. -/
theorem Reader.step_after (reader : Reader) (token : Token) :
    (reader.after earlier).step token =
      (reader.step token).map (Reader.after · earlier) := by
  obtain ⟨forms, stack, ending⟩ := reader
  have hentered := enter_after earlier ⟨forms, stack, ending⟩ token
  rcases ending with _ | ⟨opened, items, tail⟩
  · rcases stack with _ | ⟨frame, stack⟩
    · exact hentered
    · cases frame with
      | quote mark => exact hentered
      | dotted opened items =>
          by_cases hclosing : token.kind = .closing
          · simp only [step, after, hclosing, if_true, Except.map]
          · simpa only [step, after, hclosing, if_false] using hentered
      | list opened items =>
          by_cases hclosing : token.kind = .closing
          · simp only [step, after, hclosing, if_true]
            exact congrArg Except.ok (deliver_after earlier ..)
          · by_cases hpoint : token.kind = .atom "."
            · by_cases hfirst : items = []
              · simp [step, after, hpoint, hfirst, Except.map]
              · simp [step, after, hpoint, hfirst, Except.map]
            · simpa only [step, after, hclosing, hpoint, if_false] using hentered
  · by_cases hclosing : token.kind = .closing
    · simp only [step, after, hclosing, if_true]
      exact congrArg Except.ok (deliver_after earlier ..)
    · simp only [step, after, hclosing, if_false, Except.map]

theorem foldlM_step_after (reader : Reader) (tokens : List Token) :
    tokens.foldlM Reader.step (reader.after earlier) =
      (tokens.foldlM Reader.step reader).map (Reader.after · earlier) := by
  induction tokens generalizing reader with
  | nil => rfl
  | cons token tokens ih =>
      rw [List.foldlM_cons, List.foldlM_cons, Reader.step_after]
      cases reader.step token with
      | error fault => rfl
      | ok next => exact ih next

theorem Reader.finish_after (reader : Reader) :
    (reader.after earlier).finish =
      reader.finish.map (earlier.reverse ++ ·) := by
  obtain ⟨forms, stack, ending⟩ := reader
  cases ending with
  | some pending => rfl
  | none =>
      rcases stack with _ | ⟨frame, stack⟩
      · simp [finish, after, Except.map]
      · cases frame <;> rfl

/-- Forms completed before come before those of the tokens that follow. -/
theorem Reader.run_after (reader : Reader) (tokens : List Token) :
    (reader.after earlier).run tokens =
      (reader.run tokens).map (earlier.reverse ++ ·) := by
  rw [run, run, foldlM_step_after]
  cases tokens.foldlM Reader.step reader with
  | error fault => rfl
  | ok last => exact last.finish_after earlier

end After

/-- Whether a reader can be given tokens after which nothing is open. -/
def Reader.Closable (reader : Reader) : Prop :=
  ∃ (tokens : List Token) (forms : List Datum),
    tokens.foldlM Reader.step reader = .ok ⟨forms, [], none⟩

section Closing

theorem Reader.Closable.of_run {reader next : Reader} {before : List Token}
    (hrun : before.foldlM Reader.step reader = .ok next)
    (hclosable : next.Closable) : reader.Closable := by
  obtain ⟨tokens, forms, hclosed⟩ := hclosable
  exact ⟨before ++ tokens, forms, (foldlM_step_append hrun tokens).trans hclosed⟩

theorem Reader.Closable.of_closing {reader next : Reader} (place : Location)
    (hclosed : reader.step ⟨.closing, place⟩ = .ok next)
    (hclosable : next.Closable) : reader.Closable :=
  .of_run (foldlM_step_cons hclosed []) hclosable

/-- Once a form is complete, all that encloses it can be closed, from the
innermost outwards. -/
theorem Reader.closable_deliver (forms : List Datum) (form : Datum)
    (stack : List Frame) : (deliver forms form stack).Closable := by
  induction stack generalizing form with
  | nil => exact ⟨[], form :: forms, rfl⟩
  | cons frame stack ih =>
      cases frame with
      | list opened items =>
          exact .of_closing opened rfl (ih _)
      | dotted opened items =>
          exact .of_closing opened rfl (ih _)
      | quote mark => exact ih (.quoted mark form)

theorem Spells.depth_lt {depth : Nat} {tokens : List Token} {form : Datum}
    (hspelled : Spells depth tokens form) : depth < maxNesting := by
  cases hspelled <;> assumption

/-- What has been read so far of a list that is still open can be completed. -/
theorem Reached.closable {tokens : List Token} {reader : Reader} {fault : Fault}
    (hreached : Reached tokens reader) (hfails : reader.finish = .error fault)
    (hunclosed : fault.kind = .unclosedParenthesis) : reader.Closable := by
  cases hreached with
  | @ending _ _ forms stack opened items tail _ _ =>
      exact .of_closing opened rfl
        (Reader.closable_deliver forms _ stack)
  | @between _ forms stack henclosed =>
      cases henclosed with
      | top => cases hfails
      | @list _ _ stack _ opened =>
          exact .of_closing opened rfl
            (Reader.closable_deliver forms _ stack)
      | @dotted _ _ stack pieces opened point _ _ hspelled hnonempty =>
          -- An item stands at the depth of the tail, so the tail may stand there.
          have hdeep : stack.length + 1 < maxNesting := by
            obtain ⟨piece, hmem⟩ := List.exists_mem_of_ne_nil pieces hnonempty
            exact (hspelled piece hmem).depth_lt
          have htail : Spells (stack.length + 1) [⟨.atom "#t", point⟩] _ :=
            .literal hdeep (.inl rfl)
          exact .of_run (htail.delivers forms _ rfl)
            (Reader.closable_deliver forms _ _)
      | quote mark =>
          cases hfails
          cases hunclosed

end Closing

theorem parse_append_of_ok {tokens : List Token} {forms : List Datum}
    (hparsed : parse tokens = .ok forms) (more : List Token) :
    parse (tokens ++ more) = (parse more).map (forms ++ ·) := by
  have hread : tokens.foldlM Reader.step Reader.start =
      .ok (Reader.start.after forms.reverse) := by
    obtain ⟨pieces, hspelled, rfl, rfl⟩ := spellsAll_of_parse hparsed
    simpa [Reader.after, Reader.start] using foldlM_forms hspelled []
  rw [parse_append_run hread, Reader.run_after, List.reverse_reverse,
    parse_eq_run more]

/-- What becomes of tokens when more of them follow.  Forms that were read are
read again, and then the forms of the rest.  What could not be read still cannot
be read, for the same reason, unless the tokens ended too early: inside a list
or after a quotation mark.  And a list that was left open can be completed. -/
theorem parse_append (tokens : List Token) :
    (∀ forms, parse tokens = .ok forms → ∀ more,
      parse (tokens ++ more) = (parse more).map (forms ++ ·)) ∧
    ∀ fault, parse tokens = .error fault →
      (fault.kind ≠ .unclosedParenthesis →
        ¬ (fault.kind = .unexpectedToken ∧
          fault.message = "Nothing to quote at end of input") →
        ∀ more, parse (tokens ++ more) = .error fault) ∧
      (fault.kind = .unclosedParenthesis →
        ∃ more forms, parse (tokens ++ more) = .ok forms) := by
  constructor
  · exact fun forms hparsed => parse_append_of_ok hparsed
  intro fault hfails
  rcases parse_error_cases hfails with hrun | ⟨last, hrun, hreached, hends⟩
  · constructor
    · intro _ _ more
      rw [parse_eq_run, Reader.run, List.foldlM_append, hrun]
      rfl
    · exact fun hunclosed => absurd hunclosed (foldlM_step_misfit hrun).kind_ne
  · constructor
    · intro hclosed hquoted
      rw [Fault.kind] at hclosed hquoted
      rcases Reader.finish_cause hends with hcause | hcause
      · exact absurd (congrArg Cause.kind hcause) hclosed
      · rw [Fault.message, hcause] at hquoted
        exact absurd ⟨rfl, rfl⟩ hquoted
    · intro hunclosed
      obtain ⟨more, forms, hclosed⟩ := hreached.closable hends hunclosed
      refine ⟨more, forms.reverse, ?_⟩
      rw [parse_append_run hrun, Reader.run, hclosed]
      rfl

/-- Tokens of these kinds in one row, a column each. -/
def tokenRow (kinds : List TokenKind) : List Token :=
  kinds.zipIdx.map fun (kind, column) => ⟨kind, ⟨"page", 1, column + 1⟩⟩

/-- `(x (y . '(z`. -/
def sampleOpening : List Token :=
  tokenRow [.opening, .atom "x", .opening, .atom "y", .atom ".", .quote,
    .opening, .atom "z"]

/-- `(x . )`. -/
def sampleStop : List Token :=
  tokenRow [.opening, .atom "x", .atom ".", .closing]

/-- A list in the tail of a list is completed; a tail that is missing stays
missing; and a form that was read is read before whatever follows. -/
theorem sampleOpening_continued :
    (∃ more forms, parse (sampleOpening ++ more) = .ok forms) ∧
    (∀ more, parse (sampleStop ++ more) =
      .error { cause := .dotWithoutTail, place := some ⟨"page", 1, 4⟩ }) ∧
    ∀ more, parse (tokenRow [.atom "#t"] ++ more) =
      (parse more).map ([.bool true] ++ ·) := by
  have hunclosed : parse sampleOpening =
      .error { cause := .unclosedList, place := some ⟨"page", 1, 7⟩ } :=
    (parse_eq_run sampleOpening).trans rfl
  have hwrong : parse sampleStop =
      .error { cause := .dotWithoutTail, place := some ⟨"page", 1, 4⟩ } :=
    (parse_eq_run sampleStop).trans rfl
  have hright : parse (tokenRow [.atom "#t"]) = .ok [.bool true] :=
    (parse_eq_run _).trans rfl
  refine ⟨?_, ?_, ?_⟩
  · exact ((parse_append sampleOpening).2 _ hunclosed).2 rfl
  · exact ((parse_append sampleStop).2 _ hwrong).1 (by decide) (by decide)
  · exact (parse_append _).1 _ hright

end Lisp
