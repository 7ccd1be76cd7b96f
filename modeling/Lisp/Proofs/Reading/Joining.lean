import Lisp.Proofs.Reading.Segmentation

/-!
Two sources in one.  Joined by a newline, two sources that can be read spell the
forms of the first and then those of the second: the newline ends the comment or
the atom that the first may end with, and nothing but the places of the forms
depends on where a source begins and what its file is called.
-/

namespace Lisp

/-- The same token at another place. -/
def Token.moved (move : Location → Location) (token : Token) : Token :=
  ⟨token.kind, move token.place⟩

/-- The same form with its places moved. -/
def Datum.moved (move : Location → Location) : Datum → Datum
  | .ref name place => .ref name (place.map move)
  | .pair car cdr place =>
      .pair (car.moved move) (cdr.moved move) (place.map move)
  | form => form

section Lexical

variable {file : String} {before text : List Char} {afterAtom : Bool}
  {tokens : List Token}

/-- What follows a gap may go on differently further away. -/
theorem Gap.extend {after gap : List Char} (hgap : Gap after gap)
    (hne : after ≠ []) (more : List Char) : Gap (after ++ more) gap := by
  induction hgap with
  | nothing => exact .nothing
  | blank hblank _ ih => exact .blank hblank ih
  | @comment words rest hwords hends _ ih =>
      refine .comment hwords ?_ ih
      have hsome : rest ++ after ≠ [] := by simp [hne]
      rw [← List.append_assoc, AtLineEnd, List.head?_append_of_ne_nil _ hsome]
      exact .inr (hends.resolve_left hsome)

/-- A last gap, a newline and another gap are one gap. -/
theorem Gap.join {after gap others : List Char} (hgap : Gap [] gap)
    (hothers : Gap after others) : Gap after (gap ++ '\n' :: others) := by
  induction hgap with
  | nothing => exact .blank rfl hothers
  | blank hblank _ ih => exact .blank hblank ih
  | @comment words rest hwords hends _ ih =>
      rw [List.cons_append, List.append_assoc]
      refine .comment hwords ?_ ih
      rw [List.append_nil] at hends
      rcases hends with rfl | hends
      · exact .inr rfl
      · have hsome : rest ≠ [] := by
          rintro rfl
          cases hends
        rw [List.append_assoc, AtLineEnd, List.head?_append_of_ne_nil _ hsome]
        exact .inr hends

/-- At a newline one text of the grammar can be continued by another. -/
theorem Lexes.append (hlexes : Lexes file before afterAtom text tokens)
    {more : List Char} {others : List Token}
    (hmore : Lexes file (before ++ text ++ ['\n']) false more others) :
    Lexes file before afterAtom (text ++ '\n' :: more) (tokens ++ others) := by
  induction hlexes with
  | @done before gap afterAtom hgap =>
      rw [List.append_assoc] at hmore
      have hne : gap ++ ['\n'] ≠ [] := by simp
      have hwiden := hmore.widen hne (fun rest after _ hrest => by
        rw [List.append_assoc]
        exact hgap.join hrest) afterAtom
      simpa using hwiden
  | @token before gap written rest afterAtom kind tokens hgap hkind hapart _ ih =>
      have hnext := ih (by simpa using hmore)
      have hfar : Gap (written ++ (rest ++ '\n' :: more)) gap := by
        rw [← List.append_assoc]
        exact hgap.extend (by simp [hkind.ne_nil]) ('\n' :: more)
      have htoken := Lexes.token hfar hkind hapart hnext
      simpa using htoken

/-- A text of the grammar is one wherever it stands, with other places. -/
theorem Lexes.moved (hlexes : Lexes file before afterAtom text tokens)
    {move : Location → Location} {other : String} {start : List Char}
    (hmove : ∀ passed, move (.following file (before ++ passed)) =
      .following other (start ++ passed)) :
    Lexes other start afterAtom text (tokens.map (Token.moved move)) := by
  induction hlexes generalizing start with
  | done hgap => exact .done hgap
  | @token before gap written rest _ kind tokens hgap hkind hapart _ ih =>
      have hhere : Token.moved move ⟨kind, .following file (before ++ gap)⟩ =
          ⟨kind, .following other (start ++ gap)⟩ := by
        rw [Token.moved, hmove gap]
      rw [List.map_cons, hhere]
      refine .token hgap hkind hapart (ih ?_)
      intro passed
      have hthere := hmove (gap ++ written ++ passed)
      simpa using hthere

end Lexical

section Forms

variable {move : Location → Location}

theorem Datum.moved_ofAtom (text : String) (place : Location) :
    (Datum.ofAtom text place).moved move = .ofAtom text (move place) := by
  unfold Datum.ofAtom
  split_ifs
  · rfl
  · rfl
  split
  · split_ifs <;> rfl
  split
  · rfl
  · rfl

theorem Datum.moved_chain (items : List Datum) (tail : Datum) :
    (items.foldr (fun item rest => Datum.pair item rest none) tail).moved move =
      (items.map (Datum.moved move)).foldr
        (fun item rest => Datum.pair item rest none) (tail.moved move) := by
  induction items with
  | nil => rfl
  | cons item items ih => simp only [List.foldr_cons, List.map_cons, moved, ih,
      Option.map_none]

/-- A piece of a source with its places moved. -/
def Piece.moved (move : Location → Location) (piece : Piece) : Piece :=
  (piece.1.map (Token.moved move), piece.2.moved move)

theorem Piece.tokens_moved (pieces : List Piece) :
    (pieces.map (Piece.moved move)).flatMap Prod.fst =
      (pieces.flatMap Prod.fst).map (Token.moved move) := by
  rw [List.flatMap_map, List.map_flatMap]
  rfl

theorem Piece.forms_moved (pieces : List Piece) :
    (pieces.map (Piece.moved move)).map Prod.snd =
      (pieces.map Prod.snd).map (Datum.moved move) := by
  rw [List.map_map, List.map_map]
  rfl

/-- Tokens at other places spell the same form with its places moved. -/
theorem Spells.moved {depth : Nat} {tokens : List Token} {form : Datum}
    (hspells : Spells depth tokens form) :
    Spells depth (tokens.map (Token.moved move)) (form.moved move) := by
  induction hspells with
  | literal hdepth hliteral =>
      rw [Datum.moved_ofAtom]
      exact .literal hdepth hliteral
  | name hdepth hname hpoint => exact .name hdepth hname hpoint
  | str hdepth hbody => exact .str hdepth hbody
  | quote mark hdepth _ ih => exact .quote (move mark) hdepth ih
  | empty opened closed hdepth => exact .empty (move opened) (move closed) hdepth
  | @list depth first rest opened closed hdepth _ ih =>
      have hmoved : ∀ piece ∈ (first :: rest).map (Piece.moved move),
          Spells (depth + 1) piece.1 piece.2 := List.forall_mem_map.mpr ih
      have hlist := Spells.list (move opened) (move closed) hdepth hmoved
      rw [← List.map_cons, Piece.tokens_moved, Piece.forms_moved] at hlist
      simpa [Datum.moved, Datum.moved_chain, Token.moved, Piece.moved] using hlist
  | @dotted depth first rest tokens tail opened point closed hdepth _ _ ih ihTail =>
      have hmoved : ∀ piece ∈ (first :: rest).map (Piece.moved move),
          Spells (depth + 1) piece.1 piece.2 := List.forall_mem_map.mpr ih
      have hlist := Spells.dotted (move opened) (move point) (move closed) hdepth
        hmoved ihTail
      rw [← List.map_cons, Piece.tokens_moved, Piece.forms_moved] at hlist
      simpa [Datum.moved, Datum.moved_chain, Token.moved, Piece.moved] using hlist

theorem SpellsAll.moved {tokens : List Token} {forms : List Datum}
    (hspells : SpellsAll tokens forms) (move : Location → Location) :
    SpellsAll (tokens.map (Token.moved move))
      (forms.map (Datum.moved move)) := by
  obtain ⟨pieces, hpieces, rfl, rfl⟩ := hspells
  refine ⟨pieces.map (Piece.moved move), List.forall_mem_map.mpr ?_,
    Piece.tokens_moved pieces, Piece.forms_moved pieces⟩
  exact fun piece hmem => (hpieces piece hmem).moved

theorem SpellsAll.append {tokens others : List Token} {forms more : List Datum}
    (hspells : SpellsAll tokens forms) (hothers : SpellsAll others more) :
    SpellsAll (tokens ++ others) (forms ++ more) := by
  obtain ⟨pieces, hpieces, rfl, rfl⟩ := hspells
  obtain ⟨later, hlater, rfl, rfl⟩ := hothers
  refine ⟨pieces ++ later, ?_, by simp, by simp⟩
  exact List.forall_mem_append.mpr ⟨hpieces, hlater⟩

end Forms

/-- The place in another file that has the same line and column. -/
def Location.inFile (file : String) (place : Location) : Location :=
  { place with file := file }

/-- The place in another file some lines further down. -/
def Location.below (file : String) (lines : Nat) (place : Location) : Location :=
  ⟨file, lines + place.line, place.column⟩

theorem Location.below_after (file : String) (lines : Nat) (place : Location)
    (c : Char) :
    (place.after c).below file lines = (place.below file lines).after c := by
  unfold Location.after
  split_ifs
  · rfl
  · rfl

/-- After a newline, columns are counted from there. -/
theorem Location.following_below (file other : String)
    (above passed : List Char) :
    (Location.following file passed).below other (1 + above.count '\n') =
      .following other (above ++ ['\n'] ++ passed) := by
  let lower := Location.below other (1 + above.count '\n')
  have hstart : lower (.following file []) =
      .following other (above ++ ['\n']) := by
    simp [lower, Location.following, Location.below, Nat.add_comm]
  have hlower : passed.foldl Location.after (lower (.following file [])) =
      lower (passed.foldl Location.after (.following file [])) :=
    List.foldl_hom lower fun place c => (Location.below_after _ _ place c).symm
  rw [hstart, Location.foldl_after_following, Location.foldl_after_following,
    List.nil_append] at hlower
  exact hlower.symm

theorem exists_tokens_of_read {source file : String} {forms : List Datum}
    (hread : read source file = .ok forms) :
    ∃ tokens, Lexes file [] false source.toList tokens ∧
      SpellsAll tokens forms := by
  cases hscan : tokenize source file with
  | error trouble =>
      rw [read, hscan] at hread
      cases hread
  | ok tokens =>
      rw [read, hscan] at hread
      exact ⟨tokens, lexes_of_tokenize hscan, spellsAll_of_parse hread⟩

theorem Lexes.read_eq {source file : String} {tokens : List Token}
    {forms : List Datum} (hlexes : Lexes file [] false source.toList tokens)
    (hspells : SpellsAll tokens forms) : read source file = .ok forms := by
  rw [read, hlexes.tokenize_eq]
  exact hspells.parse_eq

/-- Two sources that can be read can be read as one, a newline between them: the
forms are the same, in other places. -/
theorem read_joined {first second firstFile secondFile : String}
    {forms more : List Datum} (hfirst : read first firstFile = .ok forms)
    (hsecond : read second secondFile = .ok more) (file : String) :
    read (first ++ "\n" ++ second) file =
      .ok (forms.map (Datum.moved (Location.inFile file)) ++
        more.map (Datum.moved
          (Location.below file (1 + first.toList.count '\n')))) := by
  obtain ⟨tokens, hlexes, hspells⟩ := exists_tokens_of_read hfirst
  obtain ⟨others, hlexesToo, hspellsToo⟩ := exists_tokens_of_read hsecond
  have hhere : Lexes file [] false first.toList
      (tokens.map (Token.moved (Location.inFile file))) :=
    hlexes.moved fun _ => rfl
  have hthere : Lexes file (first.toList ++ ['\n']) false second.toList
      (others.map (Token.moved
        (Location.below file (1 + first.toList.count '\n')))) :=
    hlexesToo.moved fun passed =>
      Location.following_below secondFile file first.toList passed
  refine Lexes.read_eq ?_ ((hspells.moved _).append (hspellsToo.moved _))
  have hjoined := hhere.append hthere
  simpa using hjoined

end Lisp
