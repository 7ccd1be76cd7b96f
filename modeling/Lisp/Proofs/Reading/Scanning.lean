import Lisp.Proofs.Reading.Literal

/-!
Runs of a scanner.  After a token a scanner rests: it is in a gap, or in an
atom that any character outside atoms completes.  From a gap it reads an atom,
a parenthesis or an encoded string as the one token it is.
-/

namespace Lisp

/-- The state of a scanner after some more characters. -/
def Scanner.advance (scanner : Scanner) (chars : List Char) : Option Scanner :=
  chars.foldlM Scanner.step scanner

theorem Scanner.advance_cons {scanner next : Scanner} {c : Char}
    (hstep : scanner.step c = some next) (chars : List Char) :
    scanner.advance (c :: chars) = next.advance chars := by
  simp [Scanner.advance, hstep]

theorem Scanner.advance_append {scanner next : Scanner} {before : List Char}
    (hbefore : scanner.advance before = some next) (after : List Char) :
    scanner.advance (before ++ after) = next.advance after := by
  rw [Scanner.advance] at hbefore ⊢
  rw [List.foldlM_append, hbefore]
  rfl

theorem Scanner.scan_eq_finish {scanner last : Scanner} {chars : List Char}
    (hadvance : scanner.advance chars = some last) :
    scanner.scan chars = last.finish := by
  induction chars generalizing scanner with
  | nil =>
      obtain rfl := Option.some.inj hadvance
      rfl
  | cons c chars ih =>
      cases hstep : scanner.step c with
      | none => simp [Scanner.advance, hstep] at hadvance
      | some next =>
          rw [Scanner.advance_cons hstep] at hadvance
          rw [Scanner.scan, hstep]
          exact ih hadvance

/-- A scanner that has completed `tokens`, newest first, once the atom it may be
in ends here. -/
inductive Scanner.Rests : Scanner → List Token → Prop where
  | gap (place : Location) (tokens : List Token) :
      Rests ⟨place, .gap, tokens⟩ tokens
  | atom (place start : Location) (text : String) (tokens : List Token) :
      Rests ⟨place, .atom start text, tokens⟩ (⟨.atom text, start⟩ :: tokens)

/-- A character outside atoms is read as in a gap. -/
theorem Scanner.Rests.step {scanner : Scanner} {tokens : List Token} {c : Char}
    (hrests : scanner.Rests tokens) (hc : isAtomChar c = false) :
    scanner.step c = Scanner.step ⟨scanner.place, .gap, tokens⟩ c := by
  cases hrests with
  | gap place tokens => rfl
  | atom place start text tokens =>
      simp [Scanner.step, hc, Scanner.enter, Scanner.emit, Scanner.move]

theorem Scanner.Rests.finish {scanner : Scanner} {tokens : List Token}
    (hrests : scanner.Rests tokens) : scanner.finish = .ok tokens.reverse := by
  cases hrests with
  | gap place tokens => rfl
  | atom place start text tokens => rfl

theorem Scanner.step_atomChar (c : Char) (hc : isAtomChar c = true)
    (place : Location) (tokens : List Token) :
    Scanner.step ⟨place, .gap, tokens⟩ c =
      some ⟨place.after c, .atom place (String.singleton c), tokens⟩ := by
  simp only [isAtomChar, isDelimiter, Bool.and_eq_true, Bool.not_eq_true',
    Bool.or_eq_false_iff, beq_eq_false_iff_ne] at hc
  obtain ⟨hspace, ⟨⟨⟨hopening, hclosing⟩, hquote⟩, hstr⟩, hcomment⟩ := hc
  have hblank : isBlank c = false := by
    rw [← Bool.not_eq_true]
    intro hblank
    simp [isSpace_of_isBlank hblank] at hspace
  simp [Scanner.step, Scanner.enter, Scanner.move, hblank, hcomment, hopening,
    hclosing, hquote, hstr, hspace]

/-- The characters of an atom, one after the other. -/
theorem Scanner.advance_atom {chars : List Char}
    (hchars : ∀ c ∈ chars, isAtomChar c = true) (place start : Location)
    (text : String) (tokens : List Token) :
    Scanner.advance ⟨place, .atom start text, tokens⟩ chars =
      some ⟨chars.foldl Location.after place,
        .atom start (text ++ String.ofList chars), tokens⟩ := by
  induction chars generalizing place text with
  | nil => simp [Scanner.advance]
  | cons c chars ih =>
      have hc := hchars c List.mem_cons_self
      have hstep : Scanner.step ⟨place, .atom start text, tokens⟩ c =
          some ⟨place.after c, .atom start (text.push c), tokens⟩ := by
        simp [Scanner.step, hc, Scanner.move]
      rw [Scanner.advance_cons hstep,
        ih (fun d hd => hchars d (List.mem_cons_of_mem c hd))]
      simp [← String.toList_inj]

/-- From a gap, the text of an atom is scanned as that atom. -/
theorem Scanner.exists_advance_atom {text : String} (hne : text ≠ "")
    (hchars : ∀ c ∈ text.toList, isAtomChar c = true) (place : Location)
    (tokens : List Token) :
    ∃ last, Scanner.advance ⟨place, .gap, tokens⟩ text.toList = some last ∧
      last.Rests (⟨.atom text, place⟩ :: tokens) := by
  have hne : text.toList ≠ [] := by simpa using hne
  obtain ⟨c, chars, htext⟩ := List.exists_cons_of_ne_nil hne
  rw [htext] at hchars ⊢
  have hfirst := hchars c List.mem_cons_self
  have hstep := Scanner.step_atomChar c hfirst place tokens
  have hrest := Scanner.advance_atom
    (fun d hd => hchars d (List.mem_cons_of_mem c hd)) (place.after c) place
    (String.singleton c) tokens
  have hspelled : String.singleton c ++ String.ofList chars = text := by
    simp [← String.toList_inj, htext]
  rw [hspelled] at hrest
  refine ⟨_, (Scanner.advance_cons hstep chars).trans hrest, ?_⟩
  exact .atom _ _ _ _

/-- Inside a string, plain characters stand for themselves. -/
theorem Scanner.advance_plain {chars : List Char}
    (hchars : ∀ c ∈ chars, Quoted.IsPlain c) (place start : Location)
    (body : String) (tokens : List Token) :
    Scanner.advance ⟨place, .str start body, tokens⟩ chars =
      some ⟨chars.foldl Location.after place,
        .str start (body ++ String.ofList chars), tokens⟩ := by
  induction chars generalizing place body with
  | nil => simp [Scanner.advance]
  | cons c chars ih =>
      obtain ⟨hquote, hbackslash⟩ := hchars c List.mem_cons_self
      have hstep : Scanner.step ⟨place, .str start body, tokens⟩ c =
          some ⟨place.after c, .str start (body.push c), tokens⟩ := by
        simp [Scanner.step, hquote, hbackslash, Scanner.move]
      rw [Scanner.advance_cons hstep,
        ih (fun d hd => hchars d (List.mem_cons_of_mem c hd))]
      simp [← String.toList_inj]

theorem Scanner.advance_encodeChar (place start : Location) (body : String)
    (tokens : List Token) (c : Char) :
    Scanner.advance ⟨place, .str start body, tokens⟩ (Quoted.encodeChar c) =
      some ⟨(Quoted.encodeChar c).foldl Location.after place,
        .str start (body ++ String.ofList (Quoted.encodeChar c)), tokens⟩ := by
  rcases Quoted.encodeChar_cases c with
    ⟨hself, hplain⟩ | ⟨marker, digits, hwritten, hdigits, _⟩
  · rw [hself]
    exact Scanner.advance_plain (by simpa using hplain) place start body tokens
  · -- the backslash takes its marker along, whatever that is
    have hbackslash : Scanner.step ⟨place, .str start body, tokens⟩ '\\' =
        some ⟨place.after '\\', .escape start (body.push '\\'), tokens⟩ := by
      simp [Scanner.step, Scanner.move]
    have hmarker : Scanner.step
        ⟨place.after '\\', .escape start (body.push '\\'), tokens⟩ marker =
        some ⟨(place.after '\\').after marker,
          .str start ((body.push '\\').push marker), tokens⟩ := by
      simp [Scanner.step, Scanner.move]
    rw [hwritten, Scanner.advance_cons hbackslash, Scanner.advance_cons hmarker,
      Scanner.advance_plain hdigits]
    simp [← String.toList_inj]

theorem Scanner.advance_encoded (place start : Location) (body : String)
    (tokens : List Token) (s : List Char) :
    Scanner.advance ⟨place, .str start body, tokens⟩
        (s.flatMap Quoted.encodeChar) =
      some ⟨(s.flatMap Quoted.encodeChar).foldl Location.after place,
        .str start (body ++ String.ofList (s.flatMap Quoted.encodeChar)),
        tokens⟩ := by
  induction s generalizing place body with
  | nil => simp [Scanner.advance]
  | cons c s ih =>
      rw [List.flatMap_cons,
        Scanner.advance_append
          (Scanner.advance_encodeChar place start body tokens c),
        ih]
      simp [← String.toList_inj]

/-- From a gap, an encoded string is scanned as one token with its body. -/
theorem Scanner.exists_advance_encode (s : String) (place : Location)
    (tokens : List Token) :
    ∃ last,
      Scanner.advance ⟨place, .gap, tokens⟩ (Quoted.encode s).toList =
        some last ∧
      last.Rests
        (⟨.str (String.ofList (s.toList.flatMap Quoted.encodeChar)), place⟩ ::
          tokens) := by
  have hopen : Scanner.step ⟨place, .gap, tokens⟩ '"' =
      some ⟨place.after '"', .str place "", tokens⟩ := by
    simp [Scanner.step, Scanner.enter, Scanner.move, isBlank]
  have hchars : (Quoted.encode s).toList =
      '"' :: (s.toList.flatMap Quoted.encodeChar ++ ['"']) := by
    simp [Quoted.encode]
  have hbody :=
    Scanner.advance_encoded (place.after '"') place "" tokens s.toList
  rw [hchars, Scanner.advance_cons hopen, Scanner.advance_append hbody]
  refine ⟨_, rfl, ?_⟩
  rw [String.empty_append]
  exact .gap _ _

/-- A resting scanner passes a blank into a gap. -/
theorem Scanner.Rests.step_blank {scanner : Scanner} {tokens : List Token}
    (hrests : scanner.Rests tokens) (c : Char) (hc : isBlank c = true) :
    ∃ place, scanner.step c = some ⟨place, .gap, tokens⟩ := by
  have hatom : isAtomChar c = false := by
    simp [isAtomChar, isSpace_of_isBlank hc]
  refine ⟨scanner.place.after c, ?_⟩
  rw [hrests.step hatom]
  simp [Scanner.step, Scanner.enter, hc, Scanner.move]

/-- A resting scanner takes a closing parenthesis as a token. -/
theorem Scanner.Rests.step_closing {scanner : Scanner} {tokens : List Token}
    (hrests : scanner.Rests tokens) :
    ∃ place next, scanner.step ')' =
      some ⟨next, .gap, ⟨.closing, place⟩ :: tokens⟩ := by
  refine ⟨scanner.place, scanner.place.after ')', ?_⟩
  rw [hrests.step (by decide)]
  rfl

end Lisp
