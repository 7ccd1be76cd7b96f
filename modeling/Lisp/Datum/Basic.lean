import Lisp.Location

/-!
Forms as they are read.  A datum is a tree with the places of its names and
lists; it has no identity of its own until a session takes it in.
-/

namespace Lisp

/-- A form as written in a source. -/
inductive Datum where
  | nil
  | bool (b : Bool)
  /-- An integer that fits in a machine word. -/
  | int (n : Int64)
  /-- Any other integer. -/
  | big (n : Int)
  | float (x : Float)
  | str (s : String)
  | ref (name : String) (place : Option Location)
  | pair (car cdr : Datum) (place : Option Location)
  deriving Inhabited

/-- A chain of cells without places that ends in `tail`. -/
def Datum.chain (items : List Datum) (tail : Datum) : Datum :=
  items.foldr (fun item rest => .pair item rest none) tail

/-- A list as written: its first cell has the place of the opening
parenthesis. -/
def Datum.list (opened : Location) (items : List Datum) (tail : Datum) : Datum :=
  match items with
  | [] => tail
  | first :: rest => .pair first (Datum.chain rest tail) (some opened)

/-- A quoted form: the list and the name in front of it both have the place of
the quotation mark. -/
def Datum.quoted (mark : Location) (form : Datum) : Datum :=
  .pair (.ref "quote" (some mark)) (.pair form .nil none) (some mark)

end Lisp
