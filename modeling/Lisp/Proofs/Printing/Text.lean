import Lisp.Proofs.Printing.Spelling

/-!
The texts of lists, element by element: what a list begins with, and what
follows each of its elements.
-/

namespace Lisp

variable {H : Type}

/-- What follows an element of a list whose remaining chain is `v`. -/
def Value.restText (v : Value H) : String :=
  spellings v.rest

/-- What is written at once and then what is owed make up the text. -/
theorem Value.text_eq (v : Value H) :
    v.text = v.unfold.1 ++ spellings v.unfold.2 :=
  v.text_eq_spelling.trans (Pending.value v).unfold_spelling.symm

/-- A value that leaves nothing owed is written at once. -/
theorem Value.text_of_unfold {v : Value H} {out : String}
    (hunfold : v.unfold = (out, [])) :
    v.text = out := by
  rw [Value.text_eq, hunfold, spellings_nil, String.append_empty]

theorem Value.text_pair (id : ObjectId) (car cdr : Value H)
    (place : Option Location) :
    (Value.pair id car cdr place).text = "(" ++ car.text ++ cdr.restText := by
  rw [Value.text_eq, Value.unfold, spellings_cons, Pending.spelling,
    car.text_eq_spelling, Value.restText, String.append_assoc]

theorem Value.restText_nil : (Value.nil : Value H).restText = ")" :=
  rfl

theorem Value.restText_pair (id : ObjectId) (car cdr : Value H)
    (place : Option Location) :
    (Value.pair id car cdr place).restText =
      " " ++ car.text ++ cdr.restText := by
  rw [Value.restText, Value.rest_pair, spellings_cons, spellings_cons,
    Pending.spelling, Pending.spelling, car.text_eq_spelling, Value.restText,
    String.append_assoc]

/-- A tail that is no chain stands after a point. -/
theorem Value.restText_tail {v : Value H}
    (hrest : v.rest = [.verbatim " . ", .value v, .verbatim ")"]) :
    v.restText = " . " ++ v.text ++ ")" := by
  rw [Value.restText, hrest, v.text_eq_spelling]
  simp [Pending.spelling, String.append_assoc]

end Lisp
