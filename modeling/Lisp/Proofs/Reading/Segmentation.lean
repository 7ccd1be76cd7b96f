import Lisp.Proofs.Reading.Lexemes

/-!
Scanning stays within the lexical grammar.  Read from behind, every character
that a scanner takes adds to a gap or to a token of the rest, so a text that it
gets through is made up of gaps and tokens.  The main statement says that
scanning accepts exactly the sources of the grammar, with exact places.
-/

namespace Lisp

section Soundness

variable {file : String} {before text : List Char}

/-- What a scanner makes of the rest of a source: it first completes what it is
in the middle of and then reads tokens of the grammar. -/
def ScanMode.Reads (file : String) (before text : List Char)
    (tokens : List Token) : ScanMode → Prop
  | .gap => Lexes file before false text tokens
  | .comment => ∃ words rest, text = words ++ rest ∧ '\n' ∉ words ∧
      AtLineEnd rest ∧ Lexes file (before ++ words) false rest tokens
  | .atom start begun => ∃ more rest others, text = more ++ rest ∧
      (∀ c ∈ more, isAtomChar c = true) ∧
      tokens = ⟨.atom (begun ++ String.ofList more), start⟩ :: others ∧
      Lexes file (before ++ more) true rest others
  | .str start begun => ∃ raw rest others, text = raw ++ '"' :: rest ∧
      RawBody raw ∧
      tokens = ⟨.str (begun ++ String.ofList raw), start⟩ :: others ∧
      Lexes file (before ++ raw ++ ['"']) false rest others
  | .escape start begun => ∃ c raw rest others, text = c :: (raw ++ '"' :: rest) ∧
      RawBody raw ∧
      tokens = ⟨.str (begun.push c ++ String.ofList raw), start⟩ :: others ∧
      Lexes file (before ++ c :: raw ++ ['"']) false rest others

/-- A text of the grammar may begin with more of a gap. -/
theorem Lexes.widen {extra : List Char} {tokens : List Token}
    (hne : extra ≠ [])
    (hextra : ∀ gap after, gap ++ after = text → Gap after gap →
      Gap after (extra ++ gap))
    (hlexes : Lexes file (before ++ extra) false text tokens)
    (afterAtom : Bool) : Lexes file before afterAtom (extra ++ text) tokens := by
  cases hlexes with
  | done hgap => exact .done (hextra _ [] (List.append_nil _) hgap)
  | @token _ gap written rest _ kind others hgap hkind hapart hrest =>
      rw [← List.append_assoc extra, List.append_assoc before]
      rw [List.append_assoc before extra gap] at hrest
      refine .token (hextra _ _ rfl hgap) hkind (fun _ _ => ?_) hrest
      exact fun hnone => hne (List.append_eq_nil_iff.mp hnone).1

theorem Lexes.blank {c : Char} {tokens : List Token} (hblank : isBlank c = true)
    (hlexes : Lexes file (before ++ [c]) false text tokens)
    (afterAtom : Bool) : Lexes file before afterAtom (c :: text) tokens :=
  hlexes.widen (List.cons_ne_nil c []) (fun _ _ _ => .blank hblank) afterAtom

theorem Lexes.comment {words : List Char} {tokens : List Token}
    (hwords : '\n' ∉ words) (hends : AtLineEnd text)
    (hlexes : Lexes file (before ++ ';' :: words) false text tokens)
    (afterAtom : Bool) :
    Lexes file before afterAtom (';' :: (words ++ text)) tokens := by
  refine hlexes.widen (List.cons_ne_nil ';' words) ?_ afterAtom
  intro gap after hsplit hgap
  exact .comment hwords (hsplit ▸ hends) hgap

/-- A token at the beginning of a text of the grammar. -/
theorem Lexes.here {kind : TokenKind} {written : List Char}
    {tokens : List Token} (hkind : kind.Written written) {afterAtom : Bool}
    (hapart : afterAtom = true → kind.isAtom = false)
    (hrest : Lexes file (before ++ written) kind.isAtom text tokens) :
    Lexes file before afterAtom (written ++ text)
      (⟨kind, .following file before⟩ :: tokens) := by
  have hfree : afterAtom = true → kind.isAtom = true → ([] : List Char) ≠ [] := by
    intro hafter hatom
    rw [hapart hafter] at hatom
    cases hatom
  have htoken := Lexes.token .nothing hkind hfree
    (by rwa [List.append_nil before])
  rwa [List.append_nil before] at htoken

/-- Reading `c` where a token or a gap may begin, seen from behind. -/
theorem Scanner.enter_reads {scanner next : Scanner} {c : Char}
    {tokens : List Token} (hplace : scanner.place = .following file before)
    (henter : scanner.enter c = some next)
    (hreads : next.mode.Reads file (before ++ [c]) text tokens)
    {afterAtom : Bool} (hapart : afterAtom = true → isAtomChar c = false) :
    ∃ others, next.tokens.reverse ++ tokens =
        scanner.tokens.reverse ++ others ∧
      Lexes file before afterAtom (c :: text) others := by
  unfold Scanner.enter at henter
  split_ifs at henter with hblank hcomment hopening hclosing hquote hstr hspace
  · obtain rfl := Option.some.inj henter
    exact ⟨tokens, rfl, Lexes.blank hblank hreads afterAtom⟩
  · obtain rfl := Option.some.inj henter
    obtain ⟨words, rest, rfl, hwords, hends, hrest⟩ := hreads
    subst hcomment
    rw [List.append_assoc, List.singleton_append] at hrest
    exact ⟨tokens, rfl, Lexes.comment hwords hends hrest afterAtom⟩
  · obtain rfl := Option.some.inj henter
    subst hopening
    refine ⟨_, ?_, Lexes.here .opening (fun _ => rfl) hreads⟩
    simp [Scanner.move, Scanner.emit, hplace]
  · obtain rfl := Option.some.inj henter
    subst hclosing
    refine ⟨_, ?_, Lexes.here .closing (fun _ => rfl) hreads⟩
    simp [Scanner.move, Scanner.emit, hplace]
  · obtain rfl := Option.some.inj henter
    subst hquote
    refine ⟨_, ?_, Lexes.here .quote (fun _ => rfl) hreads⟩
    simp [Scanner.move, Scanner.emit, hplace]
  · obtain rfl := Option.some.inj henter
    subst hstr
    obtain ⟨raw, rest, others, rfl, hraw, rfl, hrest⟩ := hreads
    have hafter : before ++ ['"'] ++ raw ++ ['"'] =
        before ++ '"' :: (raw ++ ['"']) := by simp
    rw [hafter] at hrest
    have htoken : Lexes file before afterAtom _ _ :=
      Lexes.here (.str hraw) (fun _ => rfl) hrest
    refine ⟨_, ?_, by simpa using htoken⟩
    simp [Scanner.move, hplace]
  · obtain rfl := Option.some.inj henter
    obtain ⟨more, rest, others, rfl, hmore, rfl, hrest⟩ := hreads
    have hc : isAtomChar c = true := by
      simp [isAtomChar, isDelimiter, hspace, hopening, hclosing, hquote, hstr,
        hcomment]
    have hall : ∀ d ∈ c :: more, isAtomChar d = true :=
      List.forall_mem_cons.mpr ⟨hc, hmore⟩
    have hkind : TokenKind.Written (.atom (String.ofList (c :: more)))
        (c :: more) :=
      .atom (List.cons_ne_nil c more) fun d hd =>
        (isAtomChar_iff d).mp (hall d hd)
    have hfree : afterAtom = true →
        (TokenKind.atom (String.ofList (c :: more))).isAtom = false := by
      intro hafter
      rw [hapart hafter] at hc
      cases hc
    rw [List.append_assoc, List.singleton_append] at hrest
    refine ⟨_, ?_, Lexes.here hkind hfree hrest⟩
    simp [Scanner.move, hplace]

/-- One character, seen from behind: what the scanner reads after it, it reads
with it from before. -/
theorem Scanner.step_reads {scanner next : Scanner} {c : Char}
    {tokens : List Token} (hplace : scanner.place = .following file before)
    (hstep : scanner.step c = some next)
    (hreads : next.mode.Reads file (before ++ [c]) text tokens) :
    ∃ others, next.tokens.reverse ++ tokens =
        scanner.tokens.reverse ++ others ∧
      scanner.mode.Reads file before (c :: text) others := by
  obtain ⟨place, mode, done⟩ := scanner
  cases mode with
  | gap => exact Scanner.enter_reads hplace hstep hreads nofun
  | comment =>
      obtain rfl := Option.some.inj hstep
      refine ⟨tokens, rfl, ?_⟩
      by_cases hc : c = '\n'
      · subst hc
        have hlexes : Lexes file (before ++ ['\n']) false text tokens := hreads
        refine ⟨[], '\n' :: text, rfl, List.not_mem_nil, .inr rfl, ?_⟩
        rw [List.append_nil]
        exact Lexes.blank rfl hlexes false
      · simp only [Scanner.move, hc, if_false] at hreads
        obtain ⟨words, rest, rfl, hwords, hends, hrest⟩ := hreads
        have hall : '\n' ∉ c :: words :=
          List.mem_cons.not.mpr (not_or.mpr ⟨Ne.symm hc, hwords⟩)
        rw [List.append_assoc, List.singleton_append] at hrest
        exact ⟨c :: words, rest, rfl, hall, hends, hrest⟩
  | atom start begun =>
      simp only [Scanner.step] at hstep
      split at hstep
      · next hc =>
          obtain rfl := Option.some.inj hstep
          obtain ⟨more, rest, others, rfl, hmore, rfl, hrest⟩ := hreads
          rw [List.append_assoc, List.singleton_append] at hrest
          refine ⟨_, rfl, c :: more, rest, others, rfl,
            List.forall_mem_cons.mpr ⟨hc, hmore⟩, ?_, hrest⟩
          simp [← String.toList_inj]
      · next hc =>
          -- the atom is complete, and `c` is read as after it
          have hhere : (Scanner.emit ⟨place, .atom start begun, done⟩
              (.atom begun) start).place = .following file before := hplace
          obtain ⟨others, hsame, hlexes⟩ := Scanner.enter_reads hhere hstep
            hreads (fun _ => Bool.eq_false_iff.mpr hc)
          refine ⟨⟨.atom begun, start⟩ :: others, by simpa [Scanner.emit] using hsame,
            [], c :: text, others, rfl, List.forall_mem_nil _, ?_, ?_⟩
          · simp
          · rwa [List.append_nil]
  | str start begun =>
      simp only [Scanner.step] at hstep
      split_ifs at hstep with hquote hbackslash
      · obtain rfl := Option.some.inj hstep
        subst hquote
        have hlexes : Lexes file (before ++ ['"']) false text tokens := hreads
        refine ⟨⟨.str begun, start⟩ :: tokens, by simp [Scanner.move, Scanner.emit],
          [], text, tokens, rfl, .nil, by simp, ?_⟩
        rwa [List.append_nil]
      · obtain rfl := Option.some.inj hstep
        subst hbackslash
        obtain ⟨d, raw, rest, others, rfl, hraw, rfl, hrest⟩ := hreads
        refine ⟨_, rfl, '\\' :: d :: raw, rest, others, rfl, .escaped d hraw, ?_, ?_⟩
        · simp [← String.toList_inj]
        · simpa using hrest
      · obtain rfl := Option.some.inj hstep
        obtain ⟨raw, rest, others, rfl, hraw, rfl, hrest⟩ := hreads
        refine ⟨_, rfl, c :: raw, rest, others, rfl, .plain hquote hbackslash hraw,
          ?_, ?_⟩
        · simp [← String.toList_inj]
        · simpa using hrest
  | escape start begun =>
      obtain rfl := Option.some.inj hstep
      obtain ⟨raw, rest, others, rfl, hraw, rfl, hrest⟩ := hreads
      refine ⟨_, rfl, c, raw, rest, others, rfl, hraw, rfl, ?_⟩
      simpa using hrest

/-- Whatever a scanner gets through is of the grammar. -/
theorem Scanner.scan_reads {scanner : Scanner} {all : List Token}
    (hplace : scanner.place = .following file before)
    (hscan : scanner.scan text = .ok all) :
    ∃ tokens, all = scanner.tokens.reverse ++ tokens ∧
      scanner.mode.Reads file before text tokens := by
  induction text generalizing scanner before with
  | nil =>
      obtain ⟨place, mode, done⟩ := scanner
      cases mode with
      | gap =>
          obtain rfl := Except.ok.inj hscan
          exact ⟨[], by simp, .done .nothing⟩
      | comment =>
          obtain rfl := Except.ok.inj hscan
          exact ⟨[], by simp, [], [], rfl, List.not_mem_nil, .inl rfl,
            .done .nothing⟩
      | atom start begun =>
          obtain rfl := Except.ok.inj hscan
          exact ⟨[⟨.atom begun, start⟩], by simp [Scanner.emit], [], [], [], rfl,
            List.forall_mem_nil _, by simp, .done .nothing⟩
      | str | escape => cases hscan
  | cons c text ih =>
      rw [Scanner.scan] at hscan
      split at hscan
      · next next hstep =>
          have hthere : next.place = .following file (before ++ [c]) := by
            rw [(step_stepped hstep).place, hplace, Location.following_concat]
          obtain ⟨tokens, rfl, hreads⟩ := ih hthere hscan
          exact Scanner.step_reads hplace hstep hreads
      · cases hscan

end Soundness

theorem Scanner.lexes_of_scan {file : String} {text : List Char}
    {tokens : List Token}
    (hscan : (Scanner.start file).scan text = .ok tokens) :
    Lexes file [] false text tokens := by
  have hstart : (Scanner.start file).place = .following file [] := rfl
  obtain ⟨others, rfl, hreads⟩ := Scanner.scan_reads hstart hscan
  exact hreads

theorem lexes_of_tokenize {source file : String} {tokens : List Token}
    (hscan : tokenize source file = .ok tokens) :
    Lexes file [] false source.toList tokens :=
  Scanner.lexes_of_scan hscan

/-- Every token stands where some beginning of the text leads to. -/
theorem Lexes.exists_passed {file : String} {before text : List Char}
    {afterAtom : Bool} {tokens : List Token}
    (hlexes : Lexes file before afterAtom text tokens) :
    ∀ token ∈ tokens, ∃ passed, passed <+: text ∧
      token.place = .following file (before ++ passed) := by
  induction hlexes with
  | done => exact List.forall_mem_nil _
  | @token before gap written rest _ kind tokens _ _ _ _ ih =>
      rw [List.forall_mem_cons]
      constructor
      · exact ⟨gap, List.prefix_append gap _, rfl⟩
      · intro token hmem
        obtain ⟨passed, hpassed, hplace⟩ := ih token hmem
        refine ⟨gap ++ (written ++ passed), ?_, by simpa using hplace⟩
        rw [List.prefix_append_right_inj, List.prefix_append_right_inj]
        exact hpassed

/-- No text leads beyond as many lines and columns as it has characters. -/
theorem Location.following_le (file : String) (before : List Char) :
    (Location.following file before).line ≤ 1 + before.length ∧
      (Location.following file before).column ≤ 1 + before.length := by
  have hline : before.count '\n' ≤ before.length := List.count_le_length
  have hcolumn := (List.takeWhile_sublist
    (l := before.reverse) (p := (· != '\n'))).length_le
  rw [List.length_reverse] at hcolumn
  exact ⟨Nat.add_le_add_left hline 1, Nat.add_le_add_left hcolumn 1⟩

/-- In a source of fewer than `2 ^ 32 - 1` characters no line or column needs more
than thirty-two bits. -/
theorem Location.following_lt (file : String) {source : String}
    {before : List Char} (hbefore : before <+: source.toList)
    (hshort : source.length < 2 ^ 32 - 1) :
    (Location.following file before).line < 2 ^ 32 ∧
      (Location.following file before).column < 2 ^ 32 := by
  obtain ⟨hline, hcolumn⟩ := Location.following_le file before
  have hlength := hbefore.length_le
  rw [String.length_toList] at hlength
  omega

/-- Scanning recognises exactly the lexical grammar, and places every token by
the lines and characters before it.  In a source of fewer than `2 ^ 32 - 1`
characters no line or column needs more than thirty-two bits. -/
theorem tokenize_eq_ok_iff_lexes (source file : String) (tokens : List Token) :
    (tokenize source file = .ok tokens ↔
      Lexes file [] false source.toList tokens) ∧
    (source.length < 2 ^ 32 - 1 → tokenize source file = .ok tokens →
      ∀ token ∈ tokens,
        token.place.line < 2 ^ 32 ∧ token.place.column < 2 ^ 32) := by
  refine ⟨⟨lexes_of_tokenize, Lexes.tokenize_eq⟩, ?_⟩
  intro hshort hscan token hmem
  obtain ⟨passed, hpassed, hplace⟩ :=
    (lexes_of_tokenize hscan).exists_passed token hmem
  rw [hplace, List.nil_append]
  exact Location.following_lt file hpassed hshort

/-- An atom, a comment that ends with the line, and a string on the next one. -/
theorem tokenize_comment_between :
    ∃ tokens, Lexes "page" [] false "a;b\n \"c\"".toList tokens ∧
      tokens = [⟨.atom "a", ⟨"page", 1, 1⟩⟩, ⟨.str "c", ⟨"page", 2, 2⟩⟩] ∧
      ∀ token ∈ tokens,
        token.place.line < 2 ^ 32 ∧ token.place.column < 2 ^ 32 := by
  have hscan : tokenize "a;b\n \"c\"" "page" = .ok
      [⟨.atom "a", ⟨"page", 1, 1⟩⟩, ⟨.str "c", ⟨"page", 2, 2⟩⟩] := by cbv
  obtain ⟨hlexes, hsmall⟩ := tokenize_eq_ok_iff_lexes "a;b\n \"c\"" "page" _
  exact ⟨_, hlexes.mp hscan, rfl, hsmall (by decide) hscan⟩

end Lisp
