import Lisp.Proofs.Reading.Whereabouts

/-!
The lexical grammar.  A source is a gap, a token, a gap, a token and so on up to
a last gap; gaps are blanks and comments, and two atoms never touch.  Every
token has the place that counting the lines and characters before it leads to.
Scanning gives the tokens of every source of this grammar.
-/

namespace Lisp

/-- The place in a file that a text from its beginning on leads to: one line for
every newline, one column for every character after the last newline. -/
def Location.following (file : String) (before : List Char) : Location :=
  ⟨file, 1 + before.count '\n',
    1 + (before.reverse.takeWhile (· != '\n')).length⟩

/-- Counting anew and moving on by one character come to the same place. -/
theorem Location.following_concat (file : String) (before : List Char)
    (c : Char) :
    Location.following file (before ++ [c]) =
      (Location.following file before).after c := by
  by_cases hc : c = '\n'
  · simp [Location.following, Location.after, hc, Nat.add_assoc]
  · simp [Location.following, Location.after, hc, Nat.add_assoc]

theorem Location.foldl_after_following (file : String)
    (before text : List Char) :
    text.foldl Location.after (Location.following file before) =
      Location.following file (before ++ text) := by
  induction text generalizing before with
  | nil => simp
  | cons c text ih =>
      rw [List.foldl_cons, ← Location.following_concat, ih,
        List.append_assoc, List.singleton_append]

/-- Whether a text is at the end of a line. -/
def AtLineEnd (text : List Char) : Prop :=
  text = [] ∨ text.head? = some '\n'

/-- What may stand between tokens, before the text `after`.  A comment goes on up
to the next newline or the end of the source. -/
inductive Gap (after : List Char) : List Char → Prop where
  | nothing : Gap after []
  | blank {c : Char} {rest : List Char} (hblank : isBlank c = true)
      (hrest : Gap after rest) : Gap after (c :: rest)
  | comment {words rest : List Char} (hwords : '\n' ∉ words)
      (hends : AtLineEnd (rest ++ after)) (hrest : Gap after rest) :
      Gap after (';' :: (words ++ rest))

/-- The bodies of strings as they are written: characters that stand for
themselves, and backslashes, each with the character after it. -/
inductive RawBody : List Char → Prop where
  | nil : RawBody []
  | plain {c : Char} {rest : List Char} (hquote : c ≠ '"')
      (hbackslash : c ≠ '\\') (hrest : RawBody rest) : RawBody (c :: rest)
  | escaped (c : Char) {rest : List Char} (hrest : RawBody rest) :
      RawBody ('\\' :: c :: rest)

/-- How the tokens of each kind are written. -/
inductive TokenKind.Written : TokenKind → List Char → Prop where
  | opening : Written .opening ['(']
  | closing : Written .closing [')']
  | quote : Written .quote ['\'']
  | str {raw : List Char} (hraw : RawBody raw) :
      Written (.str (String.ofList raw)) ('"' :: (raw ++ ['"']))
  | atom {text : List Char} (hne : text ≠ [])
      (hchars : ∀ c ∈ text,
        isSpace c = false ∧ c ∉ ['(', ')', '\'', '"', ';']) :
      Written (.atom (String.ofList text)) text

/-- Whether a token is an atom. -/
def TokenKind.isAtom : TokenKind → Bool
  | .atom _ => true
  | _ => false

/-- `Lexes file before afterAtom text tokens`: where `before` is all that stands
in the file so far, `text` is a gap, a token, a gap and so on with the given
tokens, each at its place.  If an atom has just ended, another atom does not
follow at once. -/
inductive Lexes (file : String) :
    List Char → Bool → List Char → List Token → Prop where
  | done {before gap : List Char} {afterAtom : Bool} (hgap : Gap [] gap) :
      Lexes file before afterAtom gap []
  | token {before gap written rest : List Char} {afterAtom : Bool}
      {kind : TokenKind} {tokens : List Token}
      (hgap : Gap (written ++ rest) gap) (hkind : kind.Written written)
      (hapart : afterAtom = true → kind.isAtom = true → gap ≠ [])
      (hrest : Lexes file (before ++ gap ++ written) kind.isAtom rest tokens) :
      Lexes file before afterAtom (gap ++ (written ++ rest))
        (⟨kind, .following file (before ++ gap)⟩ :: tokens)

theorem isAtomChar_iff (c : Char) :
    isAtomChar c = true ↔
      isSpace c = false ∧ c ∉ ['(', ')', '\'', '"', ';'] := by
  simp [isAtomChar, isDelimiter, and_assoc]

/-- A gap that is not empty begins with a character outside atoms. -/
theorem Gap.isAtomChar_head {after gap : List Char} (hgap : Gap after gap)
    {c : Char} (hhead : gap.head? = some c) : isAtomChar c = false := by
  cases hgap with
  | nothing => cases hhead
  | blank hblank =>
      obtain rfl := Option.some.inj hhead
      simp [isAtomChar, isSpace_of_isBlank hblank]
  | comment =>
      obtain rfl := Option.some.inj hhead
      decide

/-- Only an atom begins with a character of atoms. -/
theorem TokenKind.Written.isAtomChar_head {kind : TokenKind}
    {written : List Char} (hkind : kind.Written written)
    (hother : kind.isAtom = false) {c : Char}
    (hhead : written.head? = some c) : isAtomChar c = false := by
  cases hkind with
  | atom => cases hother
  | _ =>
      obtain rfl := Option.some.inj hhead
      decide

theorem TokenKind.Written.ne_nil {kind : TokenKind} {written : List Char}
    (hkind : kind.Written written) : written ≠ [] := by
  cases hkind with
  | atom hne => exact hne
  | _ => simp

section Completeness

theorem Scanner.advance_place {scanner last : Scanner} {chars : List Char}
    (hadvance : scanner.advance chars = some last) :
    last.place = chars.foldl Location.after scanner.place := by
  induction chars generalizing scanner with
  | nil =>
      obtain rfl := Option.some.inj hadvance
      rfl
  | cons c chars ih =>
      cases hstep : scanner.step c with
      | none => simp [Scanner.advance, hstep] at hadvance
      | some next =>
          rw [Scanner.advance_cons hstep] at hadvance
          rw [ih hadvance, (step_stepped hstep).place, List.foldl_cons]

theorem Scanner.scan_cons {scanner next : Scanner} {c : Char}
    (hstep : scanner.step c = some next) (chars : List Char) :
    scanner.scan (c :: chars) = next.scan chars := by
  rw [Scanner.scan, hstep]

theorem Scanner.scan_append {scanner next : Scanner} {chars : List Char}
    (hadvance : scanner.advance chars = some next) (rest : List Char) :
    scanner.scan (chars ++ rest) = next.scan rest := by
  induction chars generalizing scanner with
  | nil =>
      obtain rfl := Option.some.inj hadvance
      rfl
  | cons c chars ih =>
      cases hstep : scanner.step c with
      | none => simp [Scanner.advance, hstep] at hadvance
      | some middle =>
          rw [Scanner.advance_cons hstep] at hadvance
          rw [List.cons_append, Scanner.scan_cons hstep, ih hadvance]

/-- The words of a comment are passed over. -/
theorem Scanner.advance_comment {words : List Char} (hwords : '\n' ∉ words)
    (place : Location) (tokens : List Token) :
    Scanner.advance ⟨place, .comment, tokens⟩ words =
      some ⟨words.foldl Location.after place, .comment, tokens⟩ := by
  induction words generalizing place with
  | nil => rfl
  | cons c words ih =>
      obtain ⟨hc, hrest⟩ := not_or.mp (List.mem_cons.not.mp hwords)
      have hstep : Scanner.step ⟨place, .comment, tokens⟩ c =
          some ⟨place.after c, .comment, tokens⟩ := by
        simp [Scanner.step, Scanner.move, Ne.symm hc]
      rw [Scanner.advance_cons hstep, ih hrest]
      rfl

/-- At the end of its line a comment is over. -/
theorem Scanner.scan_comment_of_atLineEnd {text : List Char}
    (hends : AtLineEnd text) (place : Location) (tokens : List Token) :
    Scanner.scan ⟨place, .comment, tokens⟩ text =
      Scanner.scan ⟨place, .gap, tokens⟩ text := by
  cases text with
  | nil => rfl
  | cons c text =>
      obtain rfl : c = '\n' := by simpa [AtLineEnd] using hends
      rfl

/-- A gap is passed over, whatever follows it. -/
theorem Gap.scan {after gap : List Char} (hgap : Gap after gap)
    (place : Location) (tokens : List Token) :
    Scanner.scan ⟨place, .gap, tokens⟩ (gap ++ after) =
      Scanner.scan ⟨gap.foldl Location.after place, .gap, tokens⟩ after := by
  induction hgap generalizing place with
  | nothing => rfl
  | @blank c rest hblank _ ih =>
      have hstep : Scanner.step ⟨place, .gap, tokens⟩ c =
          some ⟨place.after c, .gap, tokens⟩ := by
        simp [Scanner.step, Scanner.enter, Scanner.move, hblank]
      rw [List.cons_append, Scanner.scan_cons hstep, ih]
      rfl
  | @comment words rest hwords hends _ ih =>
      have hstep : Scanner.step ⟨place, .gap, tokens⟩ ';' =
          some ⟨place.after ';', .comment, tokens⟩ := rfl
      rw [List.cons_append, Scanner.scan_cons hstep, List.append_assoc,
        Scanner.scan_append (Scanner.advance_comment hwords _ _),
        Scanner.scan_comment_of_atLineEnd hends, ih, List.foldl_cons,
        List.foldl_append]

theorem RawBody.advance {raw : List Char} (hraw : RawBody raw)
    (place start : Location) (body : String) (tokens : List Token) :
    Scanner.advance ⟨place, .str start body, tokens⟩ raw =
      some ⟨raw.foldl Location.after place,
        .str start (body ++ String.ofList raw), tokens⟩ := by
  induction hraw generalizing place body with
  | nil => simp [Scanner.advance]
  | @plain c rest hquote hbackslash _ ih =>
      have hstep : Scanner.step ⟨place, .str start body, tokens⟩ c =
          some ⟨place.after c, .str start (body.push c), tokens⟩ := by
        simp [Scanner.step, Scanner.move, hquote, hbackslash]
      rw [Scanner.advance_cons hstep, ih]
      simp [← String.toList_inj]
  | @escaped c rest _ ih =>
      have hbackslash : Scanner.step ⟨place, .str start body, tokens⟩ '\\' =
          some ⟨place.after '\\', .escape start (body.push '\\'), tokens⟩ := by
        simp [Scanner.step, Scanner.move]
      have htaken : Scanner.step
          ⟨place.after '\\', .escape start (body.push '\\'), tokens⟩ c =
          some ⟨(place.after '\\').after c,
            .str start ((body.push '\\').push c), tokens⟩ := rfl
      rw [Scanner.advance_cons hbackslash, Scanner.advance_cons htaken, ih]
      simp [← String.toList_inj]

/-- From a gap, a token is scanned as what it is written as. -/
theorem TokenKind.Written.advance {kind : TokenKind} {written : List Char}
    (hkind : kind.Written written) (place : Location) (tokens : List Token) :
    ∃ last, Scanner.advance ⟨place, .gap, tokens⟩ written = some last ∧
      last.Rests (⟨kind, place⟩ :: tokens) ∧
      (kind.isAtom = false → last.mode = .gap) := by
  cases hkind with
  | opening | closing | quote => exact ⟨_, rfl, .gap _ _, fun _ => rfl⟩
  | @str raw hraw =>
      have hopen : Scanner.step ⟨place, .gap, tokens⟩ '"' =
          some ⟨place.after '"', .str place "", tokens⟩ := rfl
      have hbody := hraw.advance (place.after '"') place "" tokens
      rw [String.empty_append] at hbody
      have hadvance : Scanner.advance ⟨place, .gap, tokens⟩
          ('"' :: (raw ++ ['"'])) =
          some ⟨(raw.foldl Location.after (place.after '"')).after '"', .gap,
            ⟨.str (String.ofList raw), place⟩ :: tokens⟩ := by
        rw [Scanner.advance_cons hopen, Scanner.advance_append hbody]
        rfl
      exact ⟨_, hadvance, .gap _ _, fun _ => rfl⟩
  | atom hne hchars =>
      have hword : String.ofList written ≠ "" := by
        simpa [← String.toList_inj] using hne
      have hatoms : ∀ c ∈ (String.ofList written).toList,
          isAtomChar c = true := by
        intro c hmem
        rw [String.toList_ofList] at hmem
        exact (isAtomChar_iff c).mpr (hchars c hmem)
      obtain ⟨last, hlast, hrests⟩ :=
        Scanner.exists_advance_atom hword hatoms place tokens
      rw [String.toList_ofList] at hlast
      exact ⟨last, hlast, hrests, nofun⟩

/-- A resting scanner goes on as from a gap, unless the atom it is in does. -/
theorem Scanner.Rests.scan {scanner : Scanner} {tokens : List Token}
    {text : List Char} (hrests : scanner.Rests tokens)
    (hapart : scanner.mode = .gap ∨
      ∀ c, text.head? = some c → isAtomChar c = false) :
    scanner.scan text = Scanner.scan ⟨scanner.place, .gap, tokens⟩ text := by
  cases text with
  | nil =>
      rw [Scanner.scan, hrests.finish]
      rfl
  | cons c text =>
      rcases hapart with hgap | hother
      · cases hrests with
        | gap => rfl
        | atom => cases hgap
      · rw [Scanner.scan, hrests.step (hother c rfl)]
        rfl

/-- Where a text goes on, nothing that it begins with belongs to an atom that has
just ended. -/
theorem Gap.isAtomChar_head_append {gap written rest : List Char}
    {kind : TokenKind} (hgap : Gap (written ++ rest) gap)
    (hkind : kind.Written written) (hapart : kind.isAtom = true → gap ≠ [])
    {c : Char} (hhead : (gap ++ (written ++ rest)).head? = some c) :
    isAtomChar c = false := by
  cases gap with
  | nil =>
      have hother : kind.isAtom = false := by
        rw [← Bool.not_eq_true]
        exact fun hatom => hapart hatom rfl
      rw [List.nil_append, List.head?_append_of_ne_nil _ hkind.ne_nil] at hhead
      exact hkind.isAtomChar_head hother hhead
  | cons d gap => exact hgap.isAtomChar_head hhead

/-- A source of the grammar is scanned as its tokens. -/
theorem Lexes.scan {file : String} {before text : List Char}
    {afterAtom : Bool} {tokens : List Token}
    (hlexes : Lexes file before afterAtom text tokens) {scanner : Scanner}
    {done : List Token} (hrests : scanner.Rests done)
    (hplace : scanner.place = .following file before)
    (hmode : afterAtom = false → scanner.mode = .gap) :
    scanner.scan text = .ok (done.reverse ++ tokens) := by
  induction hlexes generalizing scanner done with
  | @done before gap afterAtom hgap =>
      rw [hrests.scan (.inr fun c => hgap.isAtomChar_head), ← List.append_nil gap,
        hgap.scan]
      simp [Scanner.scan, Scanner.finish]
  | @token before gap written rest afterAtom kind tokens hgap hkind hapart _ ih =>
      have hfree : scanner.mode = .gap ∨
          ∀ c, (gap ++ (written ++ rest)).head? = some c →
            isAtomChar c = false := by
        cases afterAtom with
        | false => exact .inl (hmode rfl)
        | true =>
            exact .inr fun c =>
              hgap.isAtomChar_head_append hkind (hapart rfl)
      rw [hrests.scan hfree, hgap.scan, hplace,
        Location.foldl_after_following]
      obtain ⟨last, hlast, hnext, hback⟩ :=
        hkind.advance (.following file (before ++ gap)) done
      rw [Scanner.scan_append hlast]
      have hthere : last.place =
          .following file (before ++ gap ++ written) := by
        rw [Scanner.advance_place hlast, Location.foldl_after_following]
      rw [ih hnext hthere hback]
      simp

end Completeness

theorem Lexes.scan_start {file : String} {text : List Char}
    {tokens : List Token} (hlexes : Lexes file [] false text tokens) :
    (Scanner.start file).scan text = .ok tokens :=
  hlexes.scan (.gap _ _) rfl fun _ => rfl

theorem Lexes.tokenize_eq {source file : String} {tokens : List Token}
    (hlexes : Lexes file [] false source.toList tokens) :
    tokenize source file = .ok tokens :=
  hlexes.scan_start

end Lisp
