/-!
Machine words of sixty-four bits: which integers fit in one, and how machine
arithmetic tells that its result does not.
-/

namespace Lisp

/-- Whether an integer fits in a machine word. -/
def fitsWord (n : Int) : Bool :=
  -0x8000000000000000 ≤ n && n < 0x8000000000000000

/-- An integer that fits is the same integer as a word. -/
theorem toInt_ofInt_of_fitsWord {n : Int} (hfits : fitsWord n = true) :
    (Int64.ofInt n).toInt = n := by
  simp only [fitsWord, Bool.and_eq_true, decide_eq_true_eq] at hfits
  exact Int64.toInt_ofInt_of_le hfits.1 hfits.2

/-- Every word fits. -/
theorem fitsWord_toInt (n : Int64) : fitsWord n.toInt = true := by
  have hlow := n.le_toInt
  have hhigh := n.toInt_lt
  simp only [fitsWord, Bool.and_eq_true, decide_eq_true_eq]
  exact ⟨hlow, hhigh⟩

/-- The result of a machine operation, unless the operation overflowed. -/
def Word.checked (overflowed : Bool) (result : Int64) : Option Int64 :=
  if overflowed then none else some result

/-- The quotient of two words to the floor.  The machine divides towards zero,
which is one too many where a remainder is left and the quotient is negative. -/
def Word.floorDiv (a b : Int64) : Int64 :=
  let remainder := a % b
  if (0 < remainder ∧ b < 0) ∨ (remainder < 0 ∧ 0 < b) then
    a / b - 1
  else
    a / b

end Lisp
