import Mathlib.Logic.Function.Iterate
import Lisp.Value.Printer

/-!
The text of a value by recursion, and the loop that writes it.  The loop writes
some of the text at once and leaves the rest on a stack of texts and values; what
is written and what the stack spells make up one text from the first turn to the
last.
-/

namespace Lisp

variable {H : Type}

/-- The elements of a chain of cells, first to last. -/
def Value.elements : Value H → List (Value H)
  | .pair _ car cdr _ => car :: cdr.elements
  | _ => []

/-- What a chain of cells ends in. -/
def Value.ending : Value H → Value H
  | .pair _ _ cdr _ => cdr.ending
  | v => v

theorem Value.size_lt_of_mem_elements {v element : Value H}
    (hmem : element ∈ v.elements) : element.size < v.size := by
  induction v with
  | pair id car cdr place _ ih =>
      rw [size]
      rcases List.mem_cons.mp hmem with rfl | hlater
      · omega
      · have hsmaller := ih hlater
        omega
  | _ => cases hmem

theorem Value.size_ending_le (v : Value H) : v.ending.size ≤ v.size := by
  induction v with
  | pair id car cdr place _ ih =>
      rw [ending, size]
      omega
  | _ => exact Nat.le_refl _

/-- The text of a value by recursion: the elements of a list stand between
parentheses with single spaces between them, and a tail that is not nil comes
last, after a point. -/
def Value.spelling : Value H → String
  | .nil => "()"
  | .bool b => if b then "#t" else "#f"
  | .int n => toString n.toInt
  | .big n => toString n
  | .float x => floatFormat.text x
  | .str s => Quoted.encode s
  | .ref name _ => name
  | .pair _ car cdr _ =>
      "(" ++
        String.intercalate " "
          ((car :: cdr.elements).attach.map fun element =>
            element.1.spelling) ++
        (if cdr.ending.isNil then "" else " . " ++ cdr.ending.spelling) ++ ")"
  | .closure _ params body _ =>
      "(lambda (" ++ String.intercalate " " params ++ ") " ++ body.spelling ++
        ")"
  | .expander _ params body =>
      "(create-macro (" ++ String.intercalate " " params ++ ") " ++
        body.spelling ++ ")"
  | .native proc => proc.name
termination_by v => v.size
decreasing_by
  all_goals simp only [size]
  · next element =>
      rcases List.mem_cons.mp element.2 with hsame | hlater
      · rw [hsame]
        omega
      · have hsmaller := size_lt_of_mem_elements hlater
        omega
  · have hsmaller := cdr.size_ending_le
    omega
  · omega
  · omega

theorem Value.spelling_pair (id : ObjectId) (car cdr : Value H)
    (place : Option Location) :
    (Value.pair id car cdr place).spelling =
      "(" ++ String.intercalate " " ((car :: cdr.elements).map spelling) ++
        (if cdr.ending.isNil then "" else " . " ++ cdr.ending.spelling) ++
        ")" := by
  rw [spelling, List.attach_map_val]

theorem intercalate_space (first : String) (others : List String) :
    String.intercalate " " (first :: others) =
      first ++ String.join (others.map (" " ++ ·)) := by
  induction others generalizing first with
  | nil => simp
  | cons second others ih => simp [ih, String.append_assoc]

/-- The text that something owed spells. -/
def Pending.spelling : Pending H → String
  | .value v => v.spelling
  | .verbatim s => s

/-- The text that a stack spells, from the top down. -/
def spellings (owed : List (Pending H)) : String :=
  String.join (owed.map Pending.spelling)

@[simp] theorem spellings_nil : spellings ([] : List (Pending H)) = "" :=
  String.join_nil

@[simp] theorem spellings_cons (item : Pending H) (todo : List (Pending H)) :
    spellings (item :: todo) = item.spelling ++ spellings todo :=
  String.join_cons

@[simp] theorem spellings_append (todo later : List (Pending H)) :
    spellings (todo ++ later) = spellings todo ++ spellings later := by
  rw [spellings, List.map_append, String.join_append]
  rfl

/-- What is owed after an element of a list spells the other elements, each after
a space, then the tail, then the parenthesis. -/
theorem spellings_rest (v : Value H) :
    spellings v.rest =
      String.join ((v.elements.map Value.spelling).map (" " ++ ·)) ++
        (if v.ending.isNil then "" else " . " ++ v.ending.spelling) ++ ")" := by
  induction v with
  | pair id car cdr place _ ih =>
      simp only [Value.rest_pair, spellings_cons, ih, Value.elements,
        List.map_cons, String.join_cons, Pending.spelling, String.append_assoc]
      rfl
  | nil => rfl
  | _ =>
      simp [Value.rest, Value.unchain, pushElements, Value.closing, Value.isNil,
        Value.elements, Value.ending, Pending.spelling, String.append_assoc]

/-- What is written at once for something owed and what it leaves owed make up
its spelling. -/
theorem Pending.unfold_spelling (item : Pending H) :
    item.unfold.1 ++ spellings item.unfold.2 = item.spelling := by
  cases item with
  | verbatim s => exact String.append_empty
  | value v =>
      cases v with
      | pair id car cdr place =>
          simp only [Pending.unfold, Value.unfold, Pending.spelling,
            spellings_cons, spellings_rest, Value.spelling_pair, List.map_cons,
            intercalate_space, String.append_assoc]
      | closure id params body scope =>
          simp [Pending.unfold, Value.unfold, Pending.spelling, headText,
            Value.spelling, String.append_assoc]
      | expander id params body =>
          simp [Pending.unfold, Value.unfold, Pending.spelling, headText,
            Value.spelling, String.append_assoc]
      | _ =>
          simp [Pending.unfold, Value.unfold, Pending.spelling, Value.spelling]

/-- A printer at work: what it has written, and the stack of what it owes. -/
structure Printer (H : Type) where
  written : String
  owed : List (Pending H)

namespace Printer

/-- One turn of the loop: the top of the stack is written as far as it can be at
once, and what that leaves owed takes its place.  With nothing owed the loop has
ended. -/
def step (p : Printer H) : Printer H :=
  match p.owed with
  | [] => p
  | item :: todo => ⟨p.written ++ item.unfold.1, item.unfold.2 ++ todo⟩

/-- The text that a printer will have written in the end. -/
def promise (p : Printer H) : String :=
  p.written ++ spellings p.owed

theorem promise_step (p : Printer H) : p.step.promise = p.promise := by
  obtain ⟨written, owed⟩ := p
  cases owed with
  | nil => rfl
  | cons item todo =>
      simp only [step, promise, spellings_append, spellings_cons,
        ← item.unfold_spelling, String.append_assoc]

/-- With enough turns nothing is owed any more, and what was promised is
written. -/
theorem step_iterate (p : Printer H) {turns : Nat}
    (henough : weigh Pending.weight p.owed ≤ turns) :
    step^[turns] p = ⟨p.promise, []⟩ := by
  induction turns generalizing p with
  | zero =>
      obtain ⟨written, owed⟩ := p
      cases owed with
      | nil => simp [promise]
      | cons item todo =>
          have hpositive := Nat.zero_lt_of_lt item.unfold_weight
          simp only [weigh] at henough
          omega
  | succ turns ih =>
      rw [Function.iterate_succ_apply, ih, promise_step]
      obtain ⟨written, owed⟩ := p
      cases owed with
      | nil => exact Nat.zero_le turns
      | cons item todo =>
          have hlighter := item.unfold_weight
          simp only [weigh] at henough
          simp only [step, weigh_append]
          omega

/-- The printer of values takes these turns. -/
theorem writeAll_iterate (p : Printer H) (turns : Nat) :
    writeAll (step^[turns] p).written (step^[turns] p).owed =
      writeAll p.written p.owed := by
  induction turns generalizing p with
  | zero => rfl
  | succ turns ih =>
      rw [Function.iterate_succ_apply, ih]
      obtain ⟨written, owed⟩ := p
      cases owed with
      | nil => rfl
      | cons item todo => rw [step, writeAll]

theorem writeAll_eq_promise (p : Printer H) :
    writeAll p.written p.owed = p.promise := by
  rw [← p.writeAll_iterate (weigh Pending.weight p.owed),
    p.step_iterate (Nat.le_refl _), writeAll]

/-- A printer that is about to write a value. -/
def start (v : Value H) : Printer H :=
  ⟨"", [.value v]⟩

theorem promise_start (v : Value H) : (start v).promise = v.spelling := by
  simp [start, promise, Pending.spelling]

end Printer

theorem Value.text_eq_spelling (v : Value H) : v.text = v.spelling :=
  (Printer.writeAll_eq_promise (.start v)).trans (Printer.promise_start v)

/-- The text of a value is the one given by recursion, and the loop that writes
it comes to an end with that text: within three turns for each node of the
value. -/
theorem printed_by_recursion (v : Value H) :
    v.text = v.spelling ∧
      Printer.step^[3 * v.size] (.start v) = ⟨v.spelling, []⟩ := by
  have henough : weigh Pending.weight (Printer.start v).owed ≤ 3 * v.size :=
    Nat.le_refl (3 * v.size)
  refine ⟨v.text_eq_spelling, ?_⟩
  rw [Printer.step_iterate _ henough, Printer.promise_start]

-- A procedure whose body is a dotted list, with a list and a macro inside.
example (id : ObjectId) (scope : ScopeId) :
    (Value.closure id ["x", "y"]
        (.pair id (.ref "f" none)
          (.pair id (.pair id (.str "a") .nil none) (.expander id [] .nil)
            none) none)
        scope : Value Empty).text =
      "(lambda (x y) (f (\"a\") . (create-macro () ())))" := by
  cbv

end Lisp
