import Lisp.Repl

/-!
The command line: the loop of `Lisp.Repl` on standard input and output.
-/

namespace Lisp.Console

/-- Print a text at once. -/
def printNow (text : String) : IO Unit := do
  let stdout ← IO.getStdout
  stdout.putStr text
  stdout.flush

/-- Read and answer lines until the input or the loop ends. -/
partial def converse (repl : Repl) : IO Unit := do
  printNow Repl.prompt
  let line ← (← IO.getStdin).getLine
  if line.isEmpty then
    printNow Repl.farewell
  else
    let reply := repl.answer ampleSteps ((inputLines line).headD [])
    printNow reply.text
    match reply.next with
    | some next => converse next
    | none => pure ()

end Lisp.Console

/-- Greet, and converse until the end. -/
def main : IO Unit := do
  Lisp.Console.printNow Lisp.Repl.greeting
  Lisp.Console.converse .start
