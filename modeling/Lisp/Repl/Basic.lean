import Lisp.Evaluator.Basic
import Lisp.Text.Space

/-!
A read-eval-print loop, line by line.  Every line that is not blank has a
number, which names it in error reports.  Lines come through a line editor, of
which the loop only knows that it makes one line of each line it is given.
-/

namespace Lisp

/-- The lines of a piped input, given what was read of the current one, last
character first.  A last line need not end in a newline. -/
def linesFrom (line : List Char) : List Char → List (List Char)
  | [] => if line = [] then [] else [line.reverse]
  | c :: rest =>
      if c = '\n' then
        line.reverse :: linesFrom [] rest
      else
        linesFrom (c :: line) rest

/-- The lines of a piped input. -/
def inputLines (input : String) : List (List Char) :=
  linesFrom [] input.toList

/-- A line editor: what it hands over for a line of a piped input. -/
class LineEditor where
  edit : List Char → List Char

/-- What a line asks for. -/
inductive Entry where
  | blank
  | help
  | environment
  | quit
  | source (text : String)
  deriving Repr, DecidableEq

/-- What a line asks for; space around it does not matter. -/
def Entry.ofLine [LineEditor] (line : List Char) : Entry :=
  let text := String.ofList (trimSpace (LineEditor.edit line))
  if text = "" then .blank
  else if text = ":help" then .help
  else if text = ":env" then .environment
  else if text = ":quit" ∨ text = ":exit" then .quit
  else .source text

/-- A running loop: its session, and how many lines were not blank.  Fewer than
`2 ^ 31` lines are numbered by words of 32 bits. -/
structure Repl where
  session : Session Empty
  lines : Nat

/-- The answer to a line: what is printed, and the loop to go on with, if it
goes on. -/
structure Reply where
  text : String
  next : Option Repl

namespace Repl

/-- A loop that has read nothing. -/
def start : Repl :=
  ⟨.fresh defaultLimit {} false, 0⟩

/-- What is printed before the first line is read. -/
def greeting : String :=
  "lispcore interpreter\n" ++
  "Enter expressions like: (+ 1 2)\n" ++
  "Type :help for more commands, or Ctrl+C to exit.\n" ++
  "\n"

/-- What is printed before each line is read. -/
def prompt : String :=
  "lisp> "

/-- What is printed at the end. -/
def farewell : String :=
  "Goodbye!\n"

/-- The answer to `:help`. -/
def helpText : String :=
  "Commands:\n" ++
  "  :help      - Show this help message\n" ++
  "  :env       - Show current environment bindings\n" ++
  "  :quit      - Exit the interpreter\n" ++
  "  :exit      - Exit the interpreter\n" ++
  "  Ctrl+C     - Exit the interpreter\n" ++
  "\n" ++
  "Values:\n" ++
  "  Numbers: 42, -5, 2.5, 123456789012345678901234567890\n" ++
  "  Booleans: #t #f\n" ++
  "  Strings: \"hello\\n\"\n" ++
  "  Quoted data: 'x '(1 2 . 3)\n" ++
  "\n" ++
  "Special forms:\n" ++
  "  (define name expr)   (set! name expr)   (if cond then else)\n" ++
  "  (lambda (params) body)   (begin expr ...)   (quote datum)\n" ++
  "  (create-macro (params) body)   (defmacro name (params) body)\n" ++
  "\n" ++
  "Examples:\n" ++
  "  (define square (lambda (x) (* x x)))\n" ++
  "  (square 12)\n" ++
  "  (display \"answer:\" (+ 40 2))\n" ++
  "\n"

/-- A name in a column fifteen characters wide. -/
def cell (name : String) : String :=
  "  " ++ name ++ String.ofList (List.replicate (15 - name.length) ' ')

/-- Names in rows of four. -/
def columns (names : List String) : String :=
  String.join (names.zipIdx.map fun (name, index) =>
    cell name ++ if index % 4 = 3 then "\n" else "") ++
  if names.length % 4 = 0 then "" else "\n"

/-- The name of a native procedure among the bindings. -/
def nativeName? : String × Value Empty → Option String
  | (name, .native _) => some name
  | _ => none

/-- The answer to `:env`, for the bindings visible at the top level. -/
def environmentText (bindings : List (String × Value Empty)) : String :=
  if bindings = [] then
    "Environment is empty.\n"
  else
    let natives := bindings.filterMap nativeName?
    let others := bindings.filter fun entry => (nativeName? entry).isNone
    "Environment bindings (" ++ toString bindings.length ++ " total):\n\n" ++
    (if natives = [] then ""
      else
        "Built-in procedures (" ++ toString natives.length ++ "):\n" ++
          columns natives ++ "\n") ++
    (if others = [] then ""
      else
        "User-defined values (" ++ toString others.length ++ "):\n" ++
          String.join (others.map fun (name, value) =>
            "  " ++ name ++ " = " ++ value.text ++ "\n"))

/-- How the value of a line is echoed: the empty list is not. -/
def echo (value : Value Empty) : String :=
  if value.isNil then "" else value.text ++ "\n"

/-- Evaluate line number `number`.  What it displays comes before the echo or
the report.  A line that takes more than `steps` steps ends the loop. -/
def evaluateLine (steps : Nat) (session : Session Empty) (number : Nat)
    (text : String) : Reply :=
  let file := "<input " ++ toString number ++ ">"
  match evaluateSource steps text file session with
  | .value value session =>
      ⟨session.output ++ echo value, some ⟨session.drain, number⟩⟩
  | .fault fault session =>
      ⟨session.output ++ "Error: " ++ fault.text ++ "\n",
        some ⟨session.drain, number⟩⟩
  | .unfinished => ⟨"", none⟩

section Editor

variable [LineEditor]

/-- Answer a line. -/
def answer (steps : Nat) (repl : Repl) (line : List Char) : Reply :=
  let counted : Repl := { repl with lines := repl.lines + 1 }
  match Entry.ofLine line with
  | .blank => ⟨"", some repl⟩
  | .help => ⟨helpText, some counted⟩
  | .environment =>
      ⟨environmentText (repl.session.forest.visible repl.session.root),
        some counted⟩
  | .quit => ⟨farewell, none⟩
  | .source text => evaluateLine steps repl.session counted.lines text

/-- Everything printed after `printed` while the given lines are read. -/
def converse (steps : Nat) (printed : String) (repl : Repl) :
    List (List Char) → String
  | [] => printed ++ prompt ++ farewell
  | line :: lines =>
      match repl.answer steps line with
      | ⟨text, some next⟩ => converse steps (printed ++ prompt ++ text) next lines
      | ⟨text, none⟩ => printed ++ prompt ++ text

/-- Everything printed while a whole input is read. -/
def transcript (steps : Nat) (input : String) : String :=
  converse steps greeting start (inputLines input)

end Editor

end Repl

end Lisp
