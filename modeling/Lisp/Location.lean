/-!
Places in source text.
-/

namespace Lisp

/-- A place in a named source; lines and columns count from one. -/
structure Location where
  file : String
  line : Nat
  column : Nat
  deriving Repr, DecidableEq, Inhabited

/-- Where the text of a source begins. -/
def Location.start (file : String) : Location :=
  ⟨file, 1, 1⟩

/-- The place right after `c`: a newline opens the next line, any other
character takes one column. -/
def Location.after (place : Location) (c : Char) : Location :=
  if c = '\n' then
    { place with line := place.line + 1, column := 1 }
  else
    { place with column := place.column + 1 }

/-- A place as error reports show it. -/
def Location.text (place : Location) : String :=
  "<" ++ place.file ++ ": line " ++ toString place.line ++
    ", column " ++ toString place.column ++ ">"

@[simp] theorem Location.after_file (place : Location) (c : Char) :
    (place.after c).file = place.file := by
  unfold Location.after
  split <;> rfl

end Lisp
