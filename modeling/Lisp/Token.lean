import Lisp.Fault
import Lisp.Text.Space

/-!
Source text as tokens.  A scanner reads one character at a time; between
characters it knows the place it has reached, what it is in the middle of, and
the tokens it has completed.
-/

namespace Lisp

/-- The kinds of token.  A string keeps its body as written, escapes
included. -/
inductive TokenKind where
  | opening
  | closing
  | quote
  | str (body : String)
  | atom (text : String)
  deriving Repr, DecidableEq, Inhabited

/-- A token and the place of its first character. -/
structure Token where
  kind : TokenKind
  place : Location
  deriving Repr, DecidableEq, Inhabited

/-- The characters that end an atom without being white space. -/
def isDelimiter (c : Char) : Bool :=
  c == '(' || c == ')' || c == '\'' || c == '"' || c == ';'

/-- The characters atoms are made of. -/
def isAtomChar (c : Char) : Bool :=
  !isSpace c && !isDelimiter c

/-- What a scanner is in the middle of. -/
inductive ScanMode where
  | gap
  | comment
  | atom (start : Location) (text : String)
  | str (start : Location) (body : String)
  /-- Right after a backslash in a string. -/
  | escape (start : Location) (body : String)
  deriving Repr, DecidableEq

/-- The state of a scanner; completed tokens stand newest first. -/
structure Scanner where
  place : Location
  mode : ScanMode
  tokens : List Token
  deriving Repr

/-- A scanner at the beginning of a source. -/
def Scanner.start (file : String) : Scanner :=
  ⟨Location.start file, .gap, []⟩

/-- Move past `c` into `mode`. -/
def Scanner.move (scanner : Scanner) (c : Char) (mode : ScanMode) : Scanner :=
  { scanner with place := scanner.place.after c, mode := mode }

/-- Complete a token. -/
def Scanner.emit (scanner : Scanner) (kind : TokenKind) (place : Location) :
    Scanner :=
  { scanner with tokens := ⟨kind, place⟩ :: scanner.tokens }

/-- Read `c` where a token or a gap may begin.  White space that does not
separate tokens cannot be read there. -/
def Scanner.enter (scanner : Scanner) (c : Char) : Option Scanner :=
  if isBlank c then
    some (scanner.move c .gap)
  else if c = ';' then
    some (scanner.move c .comment)
  else if c = '(' then
    some ((scanner.emit .opening scanner.place).move c .gap)
  else if c = ')' then
    some ((scanner.emit .closing scanner.place).move c .gap)
  else if c = '\'' then
    some ((scanner.emit .quote scanner.place).move c .gap)
  else if c = '"' then
    some (scanner.move c (.str scanner.place ""))
  else if isSpace c then
    none
  else
    some (scanner.move c (.atom scanner.place (String.singleton c)))

/-- Read one character, if it can be read here. -/
def Scanner.step (scanner : Scanner) (c : Char) : Option Scanner :=
  match scanner.mode with
  | .gap => scanner.enter c
  | .comment => some (scanner.move c (if c = '\n' then .gap else .comment))
  | .atom start text =>
      if isAtomChar c then
        some (scanner.move c (.atom start (text.push c)))
      else
        (scanner.emit (.atom text) start).enter c
  | .str start body =>
      if c = '"' then
        some ((scanner.emit (.str body) start).move c .gap)
      else if c = '\\' then
        some (scanner.move c (.escape start (body.push c)))
      else
        some (scanner.move c (.str start (body.push c)))
  | .escape start body => some (scanner.move c (.str start (body.push c)))

/-- The tokens of a text that ends here. -/
def Scanner.finish (scanner : Scanner) : Except Fault (List Token) :=
  match scanner.mode with
  | .gap | .comment => .ok scanner.tokens.reverse
  | .atom start text => .ok (scanner.emit (.atom text) start).tokens.reverse
  | .str start _ | .escape start _ =>
      .error { cause := .unterminatedString, place := some start }

/-- The tokens of a text that goes on with the given characters. -/
def Scanner.scan (scanner : Scanner) : List Char → Except Fault (List Token)
  | [] => scanner.finish
  | c :: rest =>
      match scanner.step c with
      | some next => next.scan rest
      | none =>
          .error
            { cause := .unreadable (String.ofList ((c :: rest).take 10))
              place := some scanner.place }

/-- The tokens of a source, each with its place in `file`. -/
def tokenize (source file : String) : Except Fault (List Token) :=
  (Scanner.start file).scan source.toList

end Lisp
