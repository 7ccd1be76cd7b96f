import Lisp.Number.Shortest
import Lisp.Text.Quoted
import Lisp.Value.Basic

/-!
The text of a value in source form.  The printer keeps what it still owes on a
stack, so a value may nest to any depth.
-/

namespace Lisp

/-- Floats are written with the fewest digits that read back, positionally from
`0.0001` up to below `1e16`, and never without a fraction or an exponent. -/
def floatFormat : FloatFormat where
  lowest := -4
  highest := 15
  whole := ".0"
  mark := "e"
  infinity := "inf"
  notANumber := "NaN"

/-- Something a printer still owes. -/
inductive Pending (H : Type) where
  | value (v : Value H)
  | verbatim (s : String)

variable {H : Type}

/-- A procedure up to its body. -/
def headText (keyword : String) (params : List String) : String :=
  "(" ++ keyword ++ " (" ++ String.intercalate " " params ++ ") "

/-- The elements of a chain of cells, last first and before those already
`seen`, and what the chain ends in. -/
def Value.unchain (seen : List (Value H)) : Value H → List (Value H) × Value H
  | .pair _ car cdr _ => cdr.unchain (car :: seen)
  | tail => (seen, tail)

/-- Owe elements, given last first, before all that is owed already; a space
stands before each. -/
def pushElements (elements : List (Value H)) (owed : List (Pending H)) :
    List (Pending H) :=
  elements.foldl
    (fun owed element => .verbatim " " :: .value element :: owed) owed

/-- What is owed at the end of a list whose chain ends in the given tail. -/
def Value.closing (tail : Value H) : List (Pending H) :=
  if tail.isNil then
    [.verbatim ")"]
  else
    [.verbatim " . ", .value tail, .verbatim ")"]

/-- What is owed after an element of a list whose remaining chain is given. -/
def Value.rest (chain : Value H) : List (Pending H) :=
  let (elements, tail) := chain.unchain []
  pushElements elements tail.closing

theorem Value.rest_unchain (v : Value H) (seen : List (Value H)) :
    pushElements (v.unchain seen).1 (v.unchain seen).2.closing =
      pushElements seen v.rest := by
  induction v generalizing seen with
  | pair id car cdr place _ ih =>
      have halone : rest (.pair id car cdr place) = pushElements [car] cdr.rest :=
        ih [car]
      rw [halone]
      exact ih (car :: seen)
  | _ => rfl

theorem Value.rest_pair (id : ObjectId) (car cdr : Value H)
    (place : Option Location) :
    (Value.pair id car cdr place).rest =
      .verbatim " " :: .value car :: cdr.rest :=
  cdr.rest_unchain [car]

/-- What is written at once for a value, and what is owed after it. -/
def Value.unfold : Value H → String × List (Pending H)
  | .nil => ("()", [])
  | .bool b => (if b then "#t" else "#f", [])
  | .int n => (toString n.toInt, [])
  | .big n => (toString n, [])
  | .float x => (floatFormat.text x, [])
  | .str s => (Quoted.encode s, [])
  | .ref name _ => (name, [])
  | .pair _ car cdr _ => ("(", .value car :: cdr.rest)
  | .closure _ params body _ =>
      (headText "lambda" params, [.value body, .verbatim ")"])
  | .expander _ params body =>
      (headText "create-macro" params, [.value body, .verbatim ")"])
  | .native proc => (proc.name, [])

/-- What is written at once for something owed, and what is owed after it. -/
def Pending.unfold : Pending H → String × List (Pending H)
  | .value v => v.unfold
  | .verbatim s => (s, [])

/-- A bound on the steps it takes to write something owed. -/
def Pending.weight : Pending H → Nat
  | .value v => 3 * v.size
  | .verbatim _ => 1

theorem Value.rest_weight (v : Value H) :
    weigh Pending.weight v.rest ≤ 3 * v.size + 2 := by
  induction v with
  | nil => exact Nat.le_add_left 1 4
  | pair id car cdr place _ ih =>
      simp only [Value.rest_pair, weigh, Pending.weight, Value.size]
      omega
  | _ => exact Nat.le_of_eq (Nat.add_comm 1 _)

theorem Value.unfold_weight (v : Value H) :
    weigh Pending.weight v.unfold.2 < 3 * v.size := by
  cases v with
  | pair id car cdr place =>
      have hchain := cdr.rest_weight
      simp only [Value.unfold, weigh, Pending.weight, Value.size]
      omega
  | closure id params body scope =>
      simp only [Value.unfold, weigh, Pending.weight, Value.size]
      omega
  | expander id params body =>
      simp only [Value.unfold, weigh, Pending.weight, Value.size]
      omega
  | _ => exact Nat.succ_pos 2

/-- A step leaves less to write than it found. -/
theorem Pending.unfold_weight (item : Pending H) :
    weigh Pending.weight item.unfold.2 < item.weight := by
  cases item with
  | value v => exact v.unfold_weight
  | verbatim s => exact Nat.succ_pos 0

/-- Write everything owed, in order, after `out`. -/
def writeAll (out : String) : List (Pending H) → String
  | [] => out
  | item :: todo =>
      writeAll (out ++ item.unfold.1) (item.unfold.2 ++ todo)
termination_by todo => weigh Pending.weight todo
decreasing_by
  have hless := item.unfold_weight
  simp only [weigh_append, weigh]
  omega

/-- The text of a value in source form. -/
def Value.text (v : Value H) : String :=
  writeAll "" [.value v]

end Lisp
