import Lisp.Datum.Atom
import Lisp.Text.Quoted
import Lisp.Token

/-!
Tokens as forms.  A reader goes forward over the tokens of a source.  It looks at
the next token before it decides how to go on with a list, and it reads the forms
in a list or after a quotation mark in turn, so a source may nest as deeply as
`maxNesting` allows.
-/

namespace Lisp

/-- A form must stand in fewer lists and quotes than this. -/
def maxNesting : Nat := 1024

/-- What reading a form comes to, and the tokens that are left then.  A form takes
at least one of the `bound` tokens that there were. -/
inductive Reading (bound : Nat) where
  | done (form : Datum) (rest : List Token) (hshorter : rest.length < bound)
  | failed (fault : Fault) (rest : List Token)

mutual

/-- Read a form that stands in `depth` lists and quotes. -/
def readForm (depth : Nat) : (tokens : List Token) → Reading tokens.length
  | [] => .failed { cause := .unexpectedEnd } []
  | token :: rest =>
      if maxNesting ≤ depth then
        .failed
          { cause := .nestingTooDeep maxNesting, place := some token.place } rest
      else
        match token.kind with
        | .opening =>
            readList depth token.place [] (rest.length + 1) rest
              (Nat.le_succ rest.length)
        | .closing =>
            .failed { cause := .strayClose, place := some token.place } rest
        | .quote =>
            if rest.isEmpty then
              .failed { cause := .nothingToQuote, place := some token.place } rest
            else
              match readForm (depth + 1) rest with
              | .done form left hshorter =>
                  .done (.quoted token.place form) left (Nat.lt_succ_of_lt hshorter)
              | .failed fault left => .failed fault left
        | .str body =>
            match Quoted.decode body with
            | .ok s => .done (.str s) rest (Nat.lt_succ_self rest.length)
            | .error cause =>
                .failed { cause := cause, place := some token.place } rest
        | .atom text =>
            if text = "." then
              .failed { cause := .strayDot, place := some token.place } rest
            else
              .done (.ofAtom text token.place) rest (Nat.lt_succ_self rest.length)
termination_by tokens => 2 * tokens.length
decreasing_by all_goals simp only [List.length_cons]; omega

/-- Read the rest of a list that stands in `depth` lists and quotes and was opened
at a given place; its items so far stand newest first. -/
def readList (depth : Nat) (opened : Location) (items : List Datum)
    (bound : Nat) : (tokens : List Token) → tokens.length ≤ bound → Reading bound
  | [], _ => .failed { cause := .unclosedList, place := some opened } []
  | token :: rest, hwithin =>
      if token.kind = .closing then
        .done (.list opened items.reverse .nil) rest hwithin
      else if token.kind = .atom "." then
        if items.isEmpty then
          .failed { cause := .dotBeforeElement, place := some token.place }
            (token :: rest)
        else
          readTail depth opened items bound rest (Nat.le_of_lt hwithin)
      else
        match readForm (depth + 1) (token :: rest) with
        | .done form left hshorter =>
            readList depth opened (form :: items) bound left
              (Nat.le_of_lt (Nat.lt_of_lt_of_le hshorter hwithin))
        | .failed fault left => .failed fault left
termination_by tokens => 2 * tokens.length + 1
decreasing_by all_goals simp only [List.length_cons] at *; omega

/-- Read the tail of a list, after its dot, and the parenthesis that closes the
list. -/
def readTail (depth : Nat) (opened : Location) (items : List Datum)
    (bound : Nat) : (tokens : List Token) → tokens.length ≤ bound → Reading bound
  | [], _ => .failed { cause := .unclosedList, place := some opened } []
  | token :: rest, hwithin =>
      if token.kind = .closing then
        .failed { cause := .dotWithoutTail, place := some token.place }
          (token :: rest)
      else
        match readForm (depth + 1) (token :: rest) with
        | .done _ [] _ =>
            .failed { cause := .unclosedList, place := some opened } []
        | .done tail (close :: left) hshorter =>
            if close.kind = .closing then
              .done (.list opened items.reverse tail) left
                (Nat.lt_of_succ_lt (Nat.lt_of_lt_of_le hshorter hwithin))
            else
              .failed { cause := .elementAfterTail, place := some close.place }
                left
        | .failed fault left => .failed fault left
termination_by tokens => 2 * tokens.length + 1
decreasing_by all_goals simp only [List.length_cons] at *; omega

end

/-- Read forms until no token is left; those before stand newest first.  If a form
cannot be read, the tokens that are left then are given too. -/
def readForms (forms : List Datum) :
    List Token → Except Fault (List Datum) × List Token
  | [] => (.ok forms.reverse, [])
  | token :: rest =>
      match readForm 0 (token :: rest) with
      | .done form left _ => readForms (form :: forms) left
      | .failed fault left => (.error fault, left)
termination_by tokens => tokens.length
decreasing_by assumption

/-- The forms that a list of tokens spells. -/
def parse (tokens : List Token) : Except Fault (List Datum) :=
  (readForms [] tokens).1

/-- The forms of a source. -/
def read (source file : String) : Except Fault (List Datum) := do
  parse (← tokenize source file)

end Lisp
