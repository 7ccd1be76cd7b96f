import Lisp.Text.Range

/-!
Two classes of blank characters: the four that may stand between tokens, and
the characters that Unicode calls white space.
-/

namespace Lisp

/-- The characters that separate tokens: space, tab, return and newline. -/
def isBlank (c : Char) : Bool :=
  c == ' ' || c == '\t' || c == '\r' || c == '\n'

/-- The ranges of code points with the Unicode property `White_Space`, in
ascending order. -/
def spaceRanges : List (Nat × Nat) :=
  [(0x09, 0x0D), (0x20, 0x20), (0x85, 0x85), (0xA0, 0xA0), (0x1680, 0x1680),
    (0x2000, 0x200A), (0x2028, 0x2029), (0x202F, 0x202F), (0x205F, 0x205F),
    (0x3000, 0x3000)]

/-- Whether a character is white space in the sense of Unicode. -/
def isSpace (c : Char) : Bool :=
  inRanges spaceRanges c

/-- Every separator is white space. -/
theorem isSpace_of_isBlank {c : Char} (hblank : isBlank c = true) :
    isSpace c = true := by
  simp only [isBlank, Bool.or_eq_true, beq_iff_eq] at hblank
  rcases hblank with ((rfl | rfl) | rfl) | rfl <;> decide

/-- A list of characters without the white space at either end. -/
def trimSpace (text : List Char) : List Char :=
  ((text.dropWhile isSpace).reverse.dropWhile isSpace).reverse

end Lisp
