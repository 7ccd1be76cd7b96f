import Lisp.Proofs.Places.Relocation
import Lisp.Proofs.Reading.Joining

/-!
Reading at other places.  A scanner and a reader note places and report them, and
go by nothing else about them.  So a source whose places are moved, along with
those it is counted on from, is read to the same forms at the moved places, or
refused for the same cause at the moved place.
-/

namespace Lisp

variable {α : Type} {move : Location → Location}

/-- What comes of reading, with its places moved; `shift` moves those in the
result. -/
def movedReading (move : Location → Location) (shift : α → α) :
    Except Fault α → Except Fault α
  | .ok result => .ok (shift result)
  | .error fault => .error (fault.relocated (.moving move))

/-- What a scanner is in the middle of, at another place. -/
def ScanMode.moved (move : Location → Location) : ScanMode → ScanMode
  | .atom start text => .atom (move start) text
  | .str start body => .str (move start) body
  | .escape start body => .escape (move start) body
  | mode => mode

/-- A scanner whose places are moved. -/
def Scanner.moved (move : Location → Location) (scanner : Scanner) : Scanner :=
  ⟨move scanner.place, scanner.mode.moved move,
    scanner.tokens.map (Token.moved move)⟩

section Scanning

variable (hcommutes : ∀ place c, move (Location.after place c) =
  (move place).after c)

include hcommutes

theorem Scanner.enter_moved (scanner : Scanner) (c : Char) :
    (scanner.moved move).enter c =
      (scanner.enter c).map (Scanner.moved move) := by
  unfold Scanner.enter
  split_ifs <;>
    simp [Scanner.moved, Scanner.move, Scanner.emit, ScanMode.moved,
      Token.moved, hcommutes]

theorem Scanner.step_moved (scanner : Scanner) (c : Char) :
    (scanner.moved move).step c =
      (scanner.step c).map (Scanner.moved move) := by
  obtain ⟨place, mode, tokens⟩ := scanner
  cases mode with
  | gap => exact Scanner.enter_moved hcommutes _ c
  | comment =>
      simp only [step, Scanner.moved, ScanMode.moved, Scanner.move,
        Option.map_some, hcommutes]
      split <;> rfl
  | atom start text =>
      simp only [step, Scanner.moved, ScanMode.moved]
      split
      · simp [Scanner.move, Scanner.moved, ScanMode.moved, hcommutes]
      · exact Scanner.enter_moved hcommutes
          (Scanner.emit ⟨place, .atom start text, tokens⟩ (.atom text) start) c
  | str start body =>
      simp only [step, Scanner.moved, ScanMode.moved]
      split_ifs <;>
        simp [Scanner.moved, Scanner.move, Scanner.emit, ScanMode.moved,
          Token.moved, hcommutes]
  | escape start body =>
      simp only [step, Scanner.moved, ScanMode.moved, Scanner.move,
        Option.map_some, hcommutes]

omit hcommutes in
theorem Scanner.finish_moved (scanner : Scanner) :
    (scanner.moved move).finish =
      movedReading move (List.map (Token.moved move)) scanner.finish := by
  obtain ⟨place, mode, tokens⟩ := scanner
  cases mode with
  | gap | comment =>
      simp only [finish, Scanner.moved, ScanMode.moved, movedReading,
        List.map_reverse]
  | atom start text =>
      simp only [finish, Scanner.moved, ScanMode.moved, movedReading,
        Scanner.emit, List.map_reverse, List.map_cons]
      rfl
  | str start body => rfl
  | escape start body => rfl

theorem Scanner.scan_moved (scanner : Scanner) (text : List Char) :
    (scanner.moved move).scan text =
      movedReading move (List.map (Token.moved move)) (scanner.scan text) := by
  induction text generalizing scanner with
  | nil => exact scanner.finish_moved
  | cons c rest ih =>
      rw [scan, scan, Scanner.step_moved hcommutes]
      cases scanner.step c with
      | some next => exact ih next
      | none => rfl

theorem tokenize_moved {file other : String}
    (hstarts : move (.start file) = .start other) (source : String) :
    tokenize source other =
      movedReading move (List.map (Token.moved move))
        (tokenize source file) := by
  have hstart : Scanner.start other = (Scanner.start file).moved move := by
    rw [Scanner.start, Scanner.start, ← hstarts]
    rfl
  rw [tokenize, tokenize, hstart, Scanner.scan_moved hcommutes]

end Scanning

/-- What encloses a form, with its places moved. -/
def Frame.moved (move : Location → Location) : Frame → Frame
  | .list opened items => .list (move opened) (items.map (Datum.moved move))
  | .dotted opened items => .dotted (move opened) (items.map (Datum.moved move))
  | .quote mark => .quote (move mark)

/-- A reader whose places are moved. -/
def Reader.moved (move : Location → Location) (reader : Reader) : Reader where
  forms := reader.forms.map (Datum.moved move)
  stack := reader.stack.map (Frame.moved move)
  ending := reader.ending.map fun (opened, items, tail) =>
    (move opened, items.map (Datum.moved move), tail.moved move)

theorem Datum.moved_list (opened : Location) (items : List Datum)
    (tail : Datum) :
    (Datum.list opened items tail).moved move =
      .list (move opened) (items.map (Datum.moved move)) (tail.moved move) := by
  cases items with
  | nil => rfl
  | cons first rest =>
      rw [Datum.list, List.map_cons, Datum.list, Datum.chain, Datum.chain,
        ← Datum.moved_chain]
      rfl

theorem Reader.deliver_moved (forms : List Datum) (form : Datum)
    (stack : List Frame) :
    Reader.deliver (forms.map (Datum.moved move)) (form.moved move)
        (stack.map (Frame.moved move)) =
      (Reader.deliver forms form stack).moved move := by
  induction stack generalizing form with
  | nil => rfl
  | cons frame stack ih =>
      cases frame with
      | list opened items => rfl
      | dotted opened items => rfl
      | quote mark => exact ih (.quoted mark form)

theorem Reader.enter_moved (reader : Reader) (token : Token) :
    (reader.moved move).enter (token.moved move) =
      movedReading move (Reader.moved move) (reader.enter token) := by
  obtain ⟨kind, place⟩ := token
  simp only [enter, Reader.moved, Token.moved, List.length_map]
  split
  · rfl
  cases kind with
  | opening | quote | closing => rfl
  | str body =>
      dsimp only
      cases Quoted.decode body with
      | ok s => exact congrArg Except.ok (Reader.deliver_moved _ (.str s) _)
      | error cause => rfl
  | atom text =>
      dsimp only
      split
      · rfl
      · rw [← Datum.moved_ofAtom]
        exact congrArg Except.ok (Reader.deliver_moved _ _ _)

theorem Reader.step_moved (reader : Reader) (token : Token) :
    (reader.moved move).step (token.moved move) =
      movedReading move (Reader.moved move) (reader.step token) := by
  obtain ⟨forms, stack, ending⟩ := reader
  obtain ⟨kind, place⟩ := token
  -- a list that is complete but for its parenthesis is delivered or refused
  have hclosed : ∀ (opened : Location) (items : List Datum) (tail : Datum)
      (around : List Frame),
      Reader.deliver (forms.map (Datum.moved move))
          (.list (move opened) (items.map (Datum.moved move)).reverse
            (tail.moved move)) (around.map (Frame.moved move)) =
        (Reader.deliver forms (.list opened items.reverse tail) around).moved
          move := by
    intro opened items tail around
    rw [← List.map_reverse, ← Datum.moved_list, Reader.deliver_moved]
  cases ending with
  | some ending =>
      obtain ⟨opened, items, tail⟩ := ending
      by_cases hclosing : kind = .closing
      · subst hclosing
        exact congrArg Except.ok (hclosed opened items tail stack)
      · have hrefused : Reader.step ⟨forms, stack, some (opened, items, tail)⟩
            ⟨kind, place⟩ =
              .error { cause := .elementAfterTail, place := some place } :=
          if_neg hclosing
        rw [hrefused]
        exact if_neg hclosing
  | none =>
      cases stack with
      | nil => exact Reader.enter_moved ⟨forms, [], none⟩ ⟨kind, place⟩
      | cons frame stack =>
          cases frame with
          | list opened items =>
              have hentered := @Reader.enter_moved move
                ⟨forms, .list opened items :: stack, none⟩ ⟨kind, place⟩
              simp only [step, Reader.moved, Frame.moved, Token.moved,
                Option.map_none, List.map_cons, List.map_eq_nil_iff]
                at hentered ⊢
              split
              · exact congrArg Except.ok (hclosed opened items .nil stack)
              split
              · split <;> rfl
              · exact hentered
          | dotted opened items =>
              have hentered := @Reader.enter_moved move
                ⟨forms, .dotted opened items :: stack, none⟩ ⟨kind, place⟩
              simp only [step, Reader.moved, Frame.moved, Token.moved,
                Option.map_none, List.map_cons] at hentered ⊢
              split
              · rfl
              · exact hentered
          | quote mark =>
              exact Reader.enter_moved ⟨forms, .quote mark :: stack, none⟩ ⟨kind, place⟩

theorem Reader.foldlM_moved (reader : Reader) (tokens : List Token) :
    (tokens.map (Token.moved move)).foldlM Reader.step (reader.moved move) =
      movedReading move (Reader.moved move)
        (tokens.foldlM Reader.step reader) := by
  induction tokens generalizing reader with
  | nil => rfl
  | cons token tokens ih =>
      rw [List.map_cons, List.foldlM_cons, List.foldlM_cons,
        Reader.step_moved]
      cases reader.step token with
      | ok next => exact ih next
      | error fault => rfl

theorem Reader.finish_moved (reader : Reader) :
    (reader.moved move).finish =
      movedReading move (List.map (Datum.moved move)) reader.finish := by
  obtain ⟨forms, stack, ending⟩ := reader
  cases ending with
  | some ending => rfl
  | none =>
      cases stack with
      | nil => exact congrArg Except.ok List.map_reverse.symm
      | cons frame stack => cases frame <;> rfl

theorem parse_moved (tokens : List Token) :
    parse (tokens.map (Token.moved move)) =
      movedReading move (List.map (Datum.moved move)) (parse tokens) := by
  have hstart : Reader.start = Reader.start.moved move := rfl
  rw [parse_eq_run, Reader.run, hstart, Reader.foldlM_moved, parse_eq_run, Reader.run]
  cases tokens.foldlM Reader.step Reader.start with
  | ok reader => exact reader.finish_moved
  | error fault => rfl

/-- A source is read alike wherever it begins, at places moved along, if these are
counted on from where it begins. -/
theorem read_moved (hcommutes : ∀ place c, move (Location.after place c) =
      (move place).after c)
    {file other : String} (hstarts : move (.start file) = .start other)
    (source : String) :
    read source other =
      movedReading move (List.map (Datum.moved move)) (read source file) := by
  rw [read, tokenize_moved hcommutes hstarts, read]
  cases tokenize source file with
  | ok tokens => exact parse_moved tokens
  | error fault => rfl

end Lisp
