import Lisp.Repl.Basic
import Lisp.Text.Cluster

/-!
The line editor of the interpreter.  When its input is piped, a line loses the
carriage return at its end, and a backspace in it takes back what was typed.
-/

namespace Lisp

/-- A line without a carriage return at its end. -/
def dropReturn (line : List Char) : List Char :=
  if line.getLast? = some '\r' then line.dropLast else line

/-- A line as typed: a backspace takes back the cluster before it. -/
def applyBackspaces (line : List Char) : List Char :=
  ((clusters line).foldl
    (fun typed cluster =>
      if cluster = ['\x08'] then typed.tail else cluster :: typed) []).reverse.flatten

/-- Lines as they are typed. -/
instance : LineEditor where
  edit line := applyBackspaces (dropReturn line)

end Lisp
