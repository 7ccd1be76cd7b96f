import Lisp.Proofs.Reading.Continuation
import Lisp.Proofs.Reading.Whereabouts

/-!
Parentheses and their matches.  The tokens of a form open as many lists as they
close, and close none that they did not open.  So what stands between an open
parenthesis and the end of the input leaves it open but closes all that comes
after, and it is this last unmatched parenthesis that an unclosed list is blamed
on.
-/

namespace Lisp

/-- How many lists a run of tokens opens. -/
def openings (tokens : List Token) : Nat :=
  tokens.countP (·.kind == .opening)

/-- How many lists a run of tokens closes. -/
def closings (tokens : List Token) : Nat :=
  tokens.countP (·.kind == .closing)

/-- Whether a parenthesis that is opened right before these tokens has no match
among them: up to no token have more lists been closed than opened. -/
def StaysOpen (tokens : List Token) : Prop :=
  ∀ part, part <+: tokens → closings part ≤ openings part

/-- Whether every parenthesis among the tokens has its match among them. -/
structure Balanced (tokens : List Token) : Prop where
  staysOpen : StaysOpen tokens
  level : openings tokens = closings tokens

/-- Whether the last opening parenthesis without a match stands at a place. -/
def LastUnclosed (tokens : List Token) (place : Location) : Prop :=
  ∃ before after, tokens = before ++ ⟨.opening, place⟩ :: after ∧
    StaysOpen after ∧
    ∀ between other rest, after = between ++ ⟨.opening, other⟩ :: rest →
      ¬ StaysOpen rest

section Counts

variable (first later : List Token)

@[simp] theorem openings_append :
    openings (first ++ later) = openings first + openings later :=
  List.countP_append

@[simp] theorem closings_append :
    closings (first ++ later) = closings first + closings later :=
  List.countP_append

@[simp] theorem openings_cons (token : Token) :
    openings (token :: later) =
      openings later + if token.kind = .opening then 1 else 0 := by
  simp [openings, List.countP_cons]

@[simp] theorem closings_cons (token : Token) :
    closings (token :: later) =
      closings later + if token.kind = .closing then 1 else 0 := by
  simp [closings, List.countP_cons]

@[simp] theorem openings_nil : openings [] = 0 := rfl

@[simp] theorem closings_nil : closings [] = 0 := rfl

end Counts

section Balanced

variable {tokens first later : List Token}

theorem StaysOpen.append (hleft : StaysOpen first)
    (hlevel : closings first ≤ openings first) (hright : StaysOpen later) :
    StaysOpen (first ++ later) := by
  intro part hbegins
  rcases List.prefix_or_prefix_of_prefix hbegins (List.prefix_append first later)
    with hshort | ⟨rest, rfl⟩
  · exact hleft part hshort
  · have hfewer := hright rest ((List.prefix_append_right_inj first).mp hbegins)
    simp only [openings_append, closings_append]
    omega

theorem Balanced.nil : Balanced [] where
  staysOpen := by
    intro part hbegins
    simp [List.prefix_nil.mp hbegins]
  level := rfl

theorem Balanced.append (hleft : Balanced first) (hright : Balanced later) :
    Balanced (first ++ later) where
  staysOpen := hleft.staysOpen.append (Nat.le_of_eq hleft.level.symm)
    hright.staysOpen
  level := by simp [hleft.level, hright.level]

/-- A token that is no parenthesis changes nothing. -/
theorem Balanced.singleton {token : Token} (hopening : token.kind ≠ .opening)
    (hclosing : token.kind ≠ .closing) : Balanced [token] where
  staysOpen := by
    intro part hbegins
    have hnone : closings part ≤ closings [token] := hbegins.sublist.countP_le
    simp [hclosing] at hnone
    omega
  level := by simp [hopening, hclosing]

theorem Balanced.enclose (hinside : Balanced tokens) (opened closed : Location) :
    Balanced (⟨.opening, opened⟩ :: (tokens ++ [⟨.closing, closed⟩])) where
  staysOpen := by
    intro part hbegins
    rcases List.prefix_cons_iff.mp hbegins with rfl | ⟨rest, rfl, hinner⟩
    · simp
    · rcases List.prefix_concat_iff.mp hinner with rfl | hshort
      · simp [hinside.level]
      · have hfewer := hinside.staysOpen rest hshort
        simp
        omega
  level := by simp [hinside.level]

theorem Balanced.flatMap {pieces : List Piece}
    (heach : ∀ piece ∈ pieces, Balanced piece.1) :
    Balanced (pieces.flatMap Prod.fst) := by
  induction pieces with
  | nil => exact .nil
  | cons piece pieces ih =>
      rw [List.forall_mem_cons] at heach
      rw [List.flatMap_cons]
      exact heach.1.append (ih heach.2)

/-- What is left open before balanced tokens, and nothing after it, is open after
them. -/
theorem Balanced.lastUnclosed {after : List Token} (hbalanced : Balanced after)
    (before : List Token) (place : Location) :
    LastUnclosed (before ++ ⟨.opening, place⟩ :: after) place := by
  refine ⟨before, after, rfl, hbalanced.staysOpen, ?_⟩
  rintro between other rest rfl hstays
  have hfewer := hbalanced.staysOpen between (List.prefix_append ..)
  have hfewerToo := hstays rest List.prefix_rfl
  have hlevel := hbalanced.level
  simp at hlevel
  omega

/-- The tokens of a form open what they close. -/
theorem Spells.balanced {depth : Nat} {form : Datum}
    (hspelled : Spells depth tokens form) : Balanced tokens := by
  induction hspelled with
  | literal | name | str => exact .singleton (by simp) (by simp)
  | quote mark _ _ ih => exact .append (.singleton (by simp) (by simp)) ih
  | empty opened closed => exact Balanced.nil.enclose opened closed
  | list opened closed _ _ ih =>
      exact (Balanced.flatMap ih).enclose opened closed
  | dotted opened point closed _ _ _ ih ihTail =>
      have hdot : Balanced [⟨.atom ".", point⟩] := .singleton (by simp) (by simp)
      have hinside := (Balanced.flatMap ih).append (hdot.append ihTail)
      simpa using hinside.enclose opened closed

end Balanced

/-- A list that is still open where the tokens end was opened by the last
parenthesis without a match. -/
theorem Reached.lastUnclosed {tokens : List Token} {reader : Reader}
    {fault : Fault} (hreached : Reached tokens reader)
    (hfails : reader.finish = .error fault)
    (hunclosed : fault.kind = .unclosedParenthesis) :
    ∃ place, fault.place = some place ∧ LastUnclosed tokens place := by
  have hitems : ∀ {depth : Nat} {pieces : List Piece},
      (∀ piece ∈ pieces, Spells depth piece.1 piece.2) →
      Balanced (pieces.flatMap Prod.fst) :=
    fun hspelled => .flatMap fun piece hmem => (hspelled piece hmem).balanced
  have hdot : ∀ point : Location, Balanced [⟨.atom ".", point⟩] :=
    fun point => .singleton (by simp) (by simp)
  cases hreached with
  | @ending _ _ _ _ opened _ _ henclosed htail =>
      cases henclosed with
      | @dotted before _ _ _ _ point _ _ hspelled _ =>
          cases hfails
          have hinside := ((hitems hspelled).append (hdot point)).append htail.balanced
          refine ⟨opened, rfl, ?_⟩
          simpa using hinside.lastUnclosed before opened
  | between henclosed =>
      cases henclosed with
      | top => cases hfails
      | @list before _ _ _ opened _ _ hspelled =>
          cases hfails
          exact ⟨opened, rfl, (hitems hspelled).lastUnclosed before opened⟩
      | @dotted before _ _ _ opened point _ _ hspelled _ =>
          cases hfails
          have hinside := (hitems hspelled).append (hdot point)
          exact ⟨opened, rfl, hinside.lastUnclosed before opened⟩
      | quote mark =>
          cases hfails
          cases hunclosed

theorem Cause.Misfit.message_ne {cause : Cause} (hmisfit : cause.Misfit) :
    ¬ (cause.kind = .unexpectedToken ∧
      cause.message = "Unexpected end of input") := by
  rcases hmisfit with hescape | hlisted
  · simp [hescape]
  · revert cause
    decide

theorem parse_message_ne {tokens : List Token} {fault : Fault}
    (hfails : parse tokens = .error fault) :
    ¬ (fault.kind = .unexpectedToken ∧
      fault.message = "Unexpected end of input") := by
  rcases parse_error_cases hfails with hrun | ⟨last, -, -, hends⟩
  · exact (foldlM_step_misfit hrun).message_ne
  · rw [Fault.kind, Fault.message]
    rcases Reader.finish_cause hends with hcause | hcause
    · rw [hcause]
      decide
    · rw [hcause]
      decide

/-- Tokens that cannot be parsed are blamed at the place of one of them: a form is
never asked for where no token is left.  An unclosed list is blamed on the last
opening parenthesis without a match, and only when all tokens have been read. -/
theorem parse_fault_blamed (tokens : List Token) (fault : Fault)
    (hfails : parse tokens = .error fault) :
    (∃ token ∈ tokens, fault.place = some token.place) ∧
    fault.cause ≠ .unexpectedEnd ∧
    ¬ (fault.kind = .unexpectedToken ∧
      fault.message = "Unexpected end of input") ∧
    (fault.kind = .unclosedParenthesis →
      (∃ place, fault.place = some place ∧ LastUnclosed tokens place) ∧
      (readForms [] tokens).2 = []) := by
  have hmessage := parse_message_ne hfails
  refine ⟨parse_fault hfails, ?_, hmessage, ?_⟩
  · intro hend
    exact hmessage ⟨congrArg Cause.kind hend, congrArg Cause.message hend⟩
  · intro hunclosed
    refine ⟨?_, (readForms_agrees [] tokens).2 fault hfails hunclosed⟩
    rcases parse_error_cases hfails with hrun | ⟨last, -, hreached, hends⟩
    · exact absurd hunclosed (foldlM_step_misfit hrun).kind_ne
    · exact hreached.lastUnclosed hends hunclosed

/-- `(x '(y (z) . w`. -/
def sampleDangling : List Token :=
  tokenRow [.opening, .atom "x", .quote, .opening, .atom "y", .opening,
    .atom "z", .closing, .atom ".", .atom "w"]

/-- The last parenthesis that is opened has its match, the one before it has
none. -/
theorem sampleDangling_blamed :
    parse sampleDangling =
      .error { cause := .unclosedList, place := some ⟨"page", 1, 4⟩ } ∧
    LastUnclosed sampleDangling ⟨"page", 1, 4⟩ := by
  have hfails : parse sampleDangling =
      .error { cause := .unclosedList, place := some ⟨"page", 1, 4⟩ } :=
    (parse_eq_run sampleDangling).trans rfl
  obtain ⟨-, -, -, hunclosed⟩ := parse_fault_blamed _ _ hfails
  obtain ⟨⟨place, hblamed, hlast⟩, -⟩ := hunclosed rfl
  obtain rfl := Option.some.inj hblamed
  exact ⟨hfails, hlast⟩

end Lisp
