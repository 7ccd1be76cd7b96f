import Lisp.Proofs.Places.Pieces
import Lisp.Proofs.Reading.Literal
import Lisp.Proofs.Reading.Moving
import Lisp.Repl.Basic

/-!
What a source is called.  The name of a source gets into the places of everything
that is read from it, and so into procedures and reports.  Evaluating a source
under another name, in a session whose places are renamed as well, comes to the
same but for these places.  A line of a conversation is called by its number.
-/

namespace Lisp

/-- A place in the file that another name is given to. -/
def Location.renamed (rename : String → String) (place : Location) : Location :=
  { place with file := rename place.file }

theorem Location.renamed_after (rename : String → String) (place : Location)
    (c : Char) :
    (place.after c).renamed rename = (place.renamed rename).after c := by
  unfold Location.after
  split_ifs <;> rfl

/-- Every place in the file that another name is given to. -/
def Relocation.renaming (rename : String → String) : Relocation :=
  .moving (Location.renamed rename)

theorem Datum.relocated_moving (move : Location → Location) :
    Datum.relocated (.moving move) = Datum.moved move := by
  funext form
  induction form with
  | pair car cdr place ihCar ihCdr =>
      simp only [relocated, moved, ihCar, ihCdr]
      rfl
  | _ => rfl

/-- A source under another name is evaluated alike, the places renamed. -/
theorem evaluateSource_renamed (rename : String → String) (steps : Nat)
    (text file : String) (s : Session Empty) :
    evaluateSource steps text (rename file)
        (s.relocated (.renaming rename)) =
      (evaluateSource steps text file s).relocated (.renaming rename)
        (Value.relocated (.renaming rename)) := by
  have hread : read text (rename file) =
      movedReading (Location.renamed rename)
        (List.map (Datum.moved (Location.renamed rename))) (read text file) :=
    read_moved (Location.renamed_after rename) rfl text
  cases hplain : read text file with
  | ok forms =>
      rw [hplain] at hread
      rw [evaluateSource_of_read steps hread, evaluateSource_of_read steps hplain,
        ← Datum.relocated_moving]
      exact Equivariant.evaluateForms (.renaming rename) steps s.root forms s
  | error fault =>
      rw [hplain] at hread
      rw [evaluateSource_of_refused steps hread,
        evaluateSource_of_refused steps hplain]
      rfl

/-- What a line of a conversation is called in reports. -/
def inputFile (number : Nat) : String :=
  "<input " ++ toString number ++ ">"

/-- The number of the line that a file name stands for. -/
def lineNumber? (file : String) : Option Nat :=
  ((integer? (file.toList.drop 7).dropLast).map Int.toNat).filter
    fun number => inputFile number = file

@[simp] theorem lineNumber?_inputFile (number : Nat) :
    lineNumber? (inputFile number) = some number := by
  have hdigits : ((inputFile number).toList.drop 7).dropLast =
      (toString (number : Int)).toList := by
    have hspelled : (inputFile number).toList =
        "<input ".toList ++ ((toString number).toList ++ [ '>']) := by
      simp [inputFile]
    have hlength : "<input ".toList.length = 7 := rfl
    rw [hspelled, ← hlength, List.drop_left, List.dropLast_concat]
    rfl
  rw [lineNumber?, hdigits, integer?_toString]
  simp

/-- The file that a line is called by when the lines are numbered anew. -/
def renumberedFile (shift : Nat → Nat) (file : String) : String :=
  match lineNumber? file with
  | some number => inputFile (shift number)
  | none => file

@[simp] theorem renumberedFile_inputFile (shift : Nat → Nat) (number : Nat) :
    renumberedFile shift (inputFile number) = inputFile (shift number) := by
  rw [renumberedFile, lineNumber?_inputFile]

/-- Every place in the line that has another number now. -/
def Relocation.renumbering (shift : Nat → Nat) : Relocation :=
  .renaming (renumberedFile shift)

theorem Relocation.renumbering_inputFile (shift : Nat → Nat)
    (number line column : Nat) :
    (renumbering shift).place (some ⟨inputFile number, line, column⟩) =
      some ⟨inputFile (shift number), line, column⟩ := by
  have hfile := renumberedFile_inputFile shift number
  exact congrArg (fun file => some (Location.mk file line column)) hfile

end Lisp
