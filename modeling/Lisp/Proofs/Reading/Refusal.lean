import Lisp.Proofs.Reading.Segmentation

/-!
The sources that cannot be scanned.  Scanning gets as far as a place where a
token may begin, and there stands either a string that is never closed or white
space that does not separate tokens.  The main statement says that these are
exactly the two ways to fail, and which fault each of them is.
-/

namespace Lisp

/-- Whether a token may begin right after a text: a parenthesis written there is
one token more. -/
def TokenMayBegin (file : String) (before : List Char) : Prop :=
  ∃ tokens, Lexes file [] false before tokens ∧
    Lexes file [] false (before ++ [')'])
      (tokens ++ [⟨.closing, .following file before⟩])

/-- A string that begins a text and is never closed. -/
def NeverClosed (text : List Char) : Prop :=
  ∃ body, text = '"' :: body ∧
    ∀ raw rest, RawBody raw → body ≠ raw ++ '"' :: rest

/-- A text that begins with white space that does not separate tokens. -/
def StrangeSpace (text : List Char) : Prop :=
  ∃ c rest, text = c :: rest ∧ isSpace c = true ∧ isBlank c = false

section Beginning

theorem Scanner.exists_advance_of_scan {scanner : Scanner} {text : List Char}
    {tokens : List Token} (hscan : scanner.scan text = .ok tokens) :
    ∃ last, scanner.advance text = some last ∧ last.finish = .ok tokens := by
  induction text generalizing scanner with
  | nil => exact ⟨scanner, rfl, hscan⟩
  | cons c text ih =>
      rw [Scanner.scan] at hscan
      split at hscan
      · next next hstep =>
          obtain ⟨last, hlast, hfinish⟩ := ih hscan
          exact ⟨last, (Scanner.advance_cons hstep text).trans hlast, hfinish⟩
      · cases hscan

/-- A token may begin where a scanner is neither in a comment nor in a
string. -/
theorem tokenMayBegin_iff (file : String) (before : List Char) :
    TokenMayBegin file before ↔ ∃ last tokens,
      (Scanner.start file).advance before = some last ∧ last.Rests tokens := by
  constructor
  · rintro ⟨tokens, hbefore, hclosed⟩
    obtain ⟨last, hlast, hfinish⟩ :=
      Scanner.exists_advance_of_scan hbefore.scan_start
    refine ⟨last, ?_⟩
    obtain ⟨place, mode, done⟩ := last
    cases mode with
    | gap => exact ⟨_, hlast, .gap _ _⟩
    | atom start text => exact ⟨_, hlast, .atom _ _ _ _⟩
    | str | escape => cases hfinish
    | comment =>
        -- in a comment the parenthesis would not be a token
        have hscan := hclosed.scan_start
        rw [Scanner.scan_append hlast] at hscan
        have hsame : done.reverse = tokens := Except.ok.inj hfinish
        have hmore : done.reverse = tokens ++ [_] := Except.ok.inj hscan
        have hlength := congrArg List.length (hsame.symm.trans hmore)
        simp at hlength
  · rintro ⟨last, tokens, hlast, hrests⟩
    refine ⟨tokens.reverse, ?_, ?_⟩
    · apply Scanner.lexes_of_scan
      rw [Scanner.scan_eq_finish hlast, hrests.finish]
    · have hplace : last.place = .following file before := by
        rw [Scanner.advance_place hlast]
        exact Location.foldl_after_following file [] before
      have hstep : last.step ')' = some ⟨last.place.after ')', .gap,
          ⟨.closing, last.place⟩ :: tokens⟩ := hrests.step (by decide)
      apply Scanner.lexes_of_scan
      rw [Scanner.scan_append hlast, Scanner.scan_cons hstep, hplace]
      simp [Scanner.scan, Scanner.finish]

end Beginning

section Failing

/-- Only white space that does not separate tokens cannot be read where a token
may begin. -/
theorem Scanner.enter_eq_none_iff (scanner : Scanner) (c : Char) :
    scanner.enter c = none ↔ isSpace c = true ∧ isBlank c = false := by
  unfold Scanner.enter
  constructor
  · intro hstuck
    split_ifs at hstuck with hblank _ _ _ _ _ hspace
    exact ⟨hspace, Bool.eq_false_iff.mpr hblank⟩
  · rintro ⟨hspace, hblank⟩
    have hother : c ∉ [';', '(', ')', '\'', '"'] := by
      intro hmem
      have hnone : [';', '(', ')', '\'', '"'].all (!isSpace ·) = true := by decide
      have hc := List.all_eq_true.mp hnone c hmem
      rw [hspace] at hc
      cases hc
    simp only [List.mem_cons, List.not_mem_nil, or_false, not_or] at hother
    simp [hblank, hspace, hother]

/-- A scanner is stuck only where a token may begin. -/
theorem Scanner.step_eq_none_iff (scanner : Scanner) (c : Char) :
    scanner.step c = none ↔ (∃ tokens, scanner.Rests tokens) ∧
      isSpace c = true ∧ isBlank c = false := by
  obtain ⟨place, mode, tokens⟩ := scanner
  cases mode with
  | gap =>
      have hrests : ∃ done, Scanner.Rests ⟨place, .gap, tokens⟩ done :=
        ⟨_, .gap place tokens⟩
      exact (Scanner.enter_eq_none_iff _ c).trans (and_iff_right hrests).symm
  | atom start text =>
      have hrests : ∃ done, Scanner.Rests ⟨place, .atom start text, tokens⟩ done :=
        ⟨_, .atom place start text tokens⟩
      rw [and_iff_right hrests, ← Scanner.enter_eq_none_iff
        (Scanner.emit ⟨place, .atom start text, tokens⟩ (.atom text) start)]
      by_cases hc : isAtomChar c = true
      · have hspace : isSpace c = false := ((isAtomChar_iff c).mp hc).1
        simp [Scanner.step, hc, Scanner.enter_eq_none_iff, hspace]
      · simp [Scanner.step, hc]
  | comment =>
      refine iff_of_false (Option.some_ne_none _) ?_
      rintro ⟨⟨_, hrests⟩, -⟩
      cases hrests
  | str start body =>
      refine iff_of_false (fun hstuck => ?_) ?_
      · cases Scanner.string?_of_stuck hstuck
      · rintro ⟨⟨_, hrests⟩, -⟩
        cases hrests
  | escape start body =>
      refine iff_of_false (fun hstuck => ?_) ?_
      · cases Scanner.string?_of_stuck hstuck
      · rintro ⟨⟨_, hrests⟩, -⟩
        cases hrests

/-- Only a quotation mark where a token may begin opens a string. -/
theorem Scanner.step_into_string {scanner next : Scanner} {c : Char}
    (houtside : scanner.mode.string? = none) (hstep : scanner.step c = some next)
    (hinside : next.mode.string? ≠ none) :
    c = '"' ∧ ∃ tokens, scanner.Rests tokens ∧
      next = ⟨scanner.place.after '"', .str scanner.place "", tokens⟩ := by
  have henter : ∀ {tokens : List Token},
      Scanner.enter { scanner with tokens := tokens } c = some next →
      c = '"' ∧ next = ⟨scanner.place.after '"', .str scanner.place "", tokens⟩ := by
    intro tokens henter
    unfold Scanner.enter at henter
    split_ifs at henter with _ _ _ _ _ hquote <;> cases henter
    all_goals first
      | exact absurd rfl hinside
      | exact ⟨hquote, by rw [hquote]; rfl⟩
  obtain ⟨place, mode, tokens⟩ := scanner
  cases mode with
  | gap =>
      obtain ⟨hc, hnext⟩ := henter hstep
      exact ⟨hc, tokens, .gap place tokens, hnext⟩
  | atom start text =>
      simp only [Scanner.step] at hstep
      split at hstep
      · cases hstep
        exact absurd rfl hinside
      · obtain ⟨hc, hnext⟩ := henter hstep
        exact ⟨hc, _, .atom place start text tokens, hnext⟩
  | comment =>
      cases hstep
      simp only [Scanner.move] at hinside
      split at hinside <;> exact absurd rfl hinside
  | str | escape => cases houtside

/-- A string is read to its end if it has one. -/
theorem Scanner.takes_str {raw : List Char} (hraw : RawBody raw)
    (place start : Location) (begun : String) (tokens : List Token) :
    Scanner.Takes ⟨place, .str start begun, tokens⟩ (raw ++ ['"']) :=
  ⟨_, Scanner.scan_append (hraw.advance place start begun tokens) ['"']⟩

/-- A string that is never closed is unterminated. -/
theorem Scanner.scan_str_of_never_closed {body : List Char}
    (hbody : ∀ raw rest, RawBody raw → body ≠ raw ++ '"' :: rest)
    (place start : Location) (begun : String) (tokens : List Token) :
    Scanner.scan ⟨place, .str start begun, tokens⟩ body =
      .error { cause := .unterminatedString, place := some start } := by
  match body with
  | [] => rfl
  | c :: body =>
      by_cases hquote : c = '"'
      · subst hquote
        exact absurd rfl (hbody [] body .nil)
      by_cases hbackslash : c = '\\'
      · subst hbackslash
        cases body with
        | nil => rfl
        | cons d body =>
            have hlater : ∀ raw rest, RawBody raw → body ≠ raw ++ '"' :: rest := by
              rintro raw rest hraw rfl
              exact hbody _ rest (.escaped d hraw) rfl
            exact Scanner.scan_str_of_never_closed hlater _ start _ tokens
      · have hlater : ∀ raw rest, RawBody raw → body ≠ raw ++ '"' :: rest := by
          rintro raw rest hraw rfl
          exact hbody _ rest (.plain hquote hbackslash hraw) rfl
        have hstep : Scanner.step ⟨place, .str start begun, tokens⟩ c =
            some ⟨place.after c, .str start (begun.push c), tokens⟩ := by
          simp [Scanner.step, Scanner.move, hquote, hbackslash]
        rw [Scanner.scan_cons hstep]
        exact Scanner.scan_str_of_never_closed hlater _ start _ tokens
termination_by body.length

end Failing

section Blaming

variable {scanner : Scanner} {text : List Char}

/-- A scanner outside strings that fails stops where a token may begin, at a
string that is never closed or at strange white space. -/
theorem Scanner.scan_fault {fault : Fault} (houtside : scanner.mode.string? = none)
    (hfails : scanner.scan text = .error fault) :
    ∃ before rest last tokens, text = before ++ rest ∧
      scanner.advance before = some last ∧ last.Rests tokens ∧
      (NeverClosed rest ∨ StrangeSpace rest) := by
  obtain ⟨place, -, hstops | ⟨hinside, -⟩⟩ := Scanner.stops hfails
  · obtain ⟨before, rest, rfl, ⟨tokens, htaken⟩, hdead, -⟩ := hstops
    obtain ⟨last, hlast, hfinish⟩ := Scanner.exists_advance_of_scan htaken
    rw [Scanner.scan_append hlast] at hfails
    have hlater : ∀ more, more ≠ [] → more <+: rest → ¬ last.Takes more := by
      rintro more hne hprefix ⟨all, hall⟩
      refine hdead more hne hprefix ⟨all, ?_⟩
      rwa [Scanner.scan_append hlast]
    have hlastOutside : last.mode.string? = none :=
      Scanner.takes_nil_iff.mp ⟨tokens, hfinish⟩
    cases rest with
    | nil =>
        rw [Scanner.scan, hfinish] at hfails
        cases hfails
    | cons c more =>
        cases hstep : last.step c with
        | none =>
            obtain ⟨⟨done, hrests⟩, hspace, hblank⟩ :=
              (last.step_eq_none_iff c).mp hstep
            exact ⟨before, _, last, done, rfl, hlast, hrests,
              .inr ⟨c, more, rfl, hspace, hblank⟩⟩
        | some next =>
            have hinside : next.mode.string? ≠ none := by
              intro hnone
              refine hlater [c] (List.cons_ne_nil c []) (by simp) ?_
              exact (Scanner.takes_cons_iff hstep []).mpr
                (Scanner.takes_nil_iff.mpr hnone)
            obtain ⟨rfl, done, hrests, rfl⟩ :=
              Scanner.step_into_string hlastOutside hstep hinside
            refine ⟨before, _, last, done, rfl, hlast, hrests,
              .inl ⟨more, rfl, ?_⟩⟩
            rintro raw after hraw rfl
            -- the text up to the end of the string could be scanned
            refine hlater ('"' :: (raw ++ ['"'])) (List.cons_ne_nil _ _) (by simp) ?_
            exact (Scanner.takes_cons_iff hstep _).mpr (Scanner.takes_str hraw _ _ _ _)
  · rw [houtside] at hinside
    cases hinside

/-- Where a token may begin, a string that is never closed and strange white
space cannot be scanned. -/
theorem Scanner.Rests.scan_fails {tokens : List Token} (hrests : scanner.Rests tokens) :
    (NeverClosed text → scanner.scan text =
      .error { cause := .unterminatedString, place := some scanner.place }) ∧
    (StrangeSpace text → scanner.scan text =
      .error
        { cause := .unreadable (String.ofList (text.take 10))
          place := some scanner.place }) := by
  constructor
  · rintro ⟨body, rfl, hbody⟩
    have hstep : scanner.step '"' = some
        ⟨scanner.place.after '"', .str scanner.place "", tokens⟩ :=
      hrests.step (by decide)
    rw [Scanner.scan_cons hstep]
    exact Scanner.scan_str_of_never_closed hbody _ _ _ _
  · rintro ⟨c, rest, rfl, hspace, hblank⟩
    have hstuck : scanner.step c = none :=
      (scanner.step_eq_none_iff c).mpr ⟨⟨tokens, hrests⟩, hspace, hblank⟩
    rw [Scanner.scan, hstuck]

end Blaming

theorem tokenize_error_iff (source file : String) (fault : Fault) :
    tokenize source file = .error fault ↔
      ∃ before rest, source.toList = before ++ rest ∧
        TokenMayBegin file before ∧
        fault.place = some (.following file before) ∧
        (NeverClosed rest ∧ fault.cause = .unterminatedString ∨
          StrangeSpace rest ∧
            fault.cause = .unreadable (String.ofList (rest.take 10))) := by
  have hplace : ∀ {before last}, (Scanner.start file).advance before = some last →
      last.place = .following file before := by
    intro before last hlast
    rw [Scanner.advance_place hlast]
    exact Location.foldl_after_following file [] before
  constructor
  · intro hfails
    obtain ⟨before, rest, last, tokens, htext, hlast, hrests, hrest⟩ :=
      Scanner.scan_fault rfl hfails
    rw [tokenize, htext, Scanner.scan_append hlast] at hfails
    refine ⟨before, rest, htext,
      (tokenMayBegin_iff file before).mpr ⟨last, tokens, hlast, hrests⟩, ?_⟩
    rcases hrest with hnever | hstrange
    · rw [hrests.scan_fails.1 hnever, hplace hlast] at hfails
      cases hfails
      exact ⟨rfl, .inl ⟨hnever, rfl⟩⟩
    · rw [hrests.scan_fails.2 hstrange, hplace hlast] at hfails
      cases hfails
      exact ⟨rfl, .inr ⟨hstrange, rfl⟩⟩
  · rintro ⟨before, rest, htext, hbegin, hblamed, hrest⟩
    obtain ⟨last, tokens, hlast, hrests⟩ := (tokenMayBegin_iff file before).mp hbegin
    obtain ⟨cause, place⟩ := fault
    obtain rfl : place = _ := hblamed
    rw [tokenize, htext, Scanner.scan_append hlast, ← hplace hlast]
    rcases hrest with ⟨hnever, rfl⟩ | ⟨hstrange, rfl⟩
    · exact hrests.scan_fails.1 hnever
    · exact hrests.scan_fails.2 hstrange

/-- Scanning fails just where a string is never closed, which is blamed on its
quotation mark, and where white space stands that does not separate tokens.  In a
source of fewer than `2 ^ 32 - 1` characters thirty-two bits are enough for the line
and the column of the place that is blamed. -/
theorem tokenize_eq_error_iff (source file : String) (fault : Fault) :
    (tokenize source file = .error fault ↔
      ∃ before rest, source.toList = before ++ rest ∧
        TokenMayBegin file before ∧
        fault.place = some (.following file before) ∧
        (NeverClosed rest ∧ fault.cause = .unterminatedString ∨
          StrangeSpace rest ∧
            fault.cause = .unreadable (String.ofList (rest.take 10)))) ∧
    (source.length < 2 ^ 32 - 1 → tokenize source file = .error fault →
      ∃ place, fault.place = some place ∧
        place.line < 2 ^ 32 ∧ place.column < 2 ^ 32) := by
  refine ⟨tokenize_error_iff source file fault, fun hshort hfails => ?_⟩
  obtain ⟨before, rest, htext, -, hblamed, -⟩ :=
    (tokenize_error_iff source file fault).mp hfails
  have hbefore : before <+: source.toList := htext ▸ List.prefix_append before rest
  exact ⟨_, hblamed, Location.following_lt file hbefore hshort⟩

/-- A string on the second line is never closed. -/
theorem tokenize_unclosed_string :
    ∃ place, tokenize "a\n \"b" "page" =
        .error ⟨.unterminatedString, some place⟩ ∧
      (∃ before rest, "a\n \"b".toList = before ++ rest ∧ NeverClosed rest ∧
        place = .following "page" before) ∧
      place.line < 2 ^ 32 ∧ place.column < 2 ^ 32 := by
  have hfails : tokenize "a\n \"b" "page" =
      .error ⟨.unterminatedString, some ⟨"page", 2, 2⟩⟩ := by cbv
  obtain ⟨hiff, hsmall⟩ := tokenize_eq_error_iff "a\n \"b" "page"
    ⟨.unterminatedString, some ⟨"page", 2, 2⟩⟩
  obtain ⟨before, rest, htext, -, hplace, hrest⟩ := hiff.mp hfails
  obtain ⟨place, hblamed, hfits⟩ := hsmall (by decide) hfails
  obtain rfl := Option.some.inj hblamed
  refine ⟨_, hfails, ⟨before, rest, htext, ?_, Option.some.inj hplace⟩, hfits⟩
  rcases hrest with ⟨hnever, -⟩ | ⟨-, hcause⟩
  · exact hnever
  · cases hcause

/-- A form feed is white space, but it does not separate tokens: a source that
holds nothing else cannot be scanned, though it opens no string. -/
theorem tokenize_form_feed :
    isSpace '\x0c' = true ∧
    tokenize "\x0c" "page" =
      .error ⟨.unreadable "\x0c", some ⟨"page", 1, 1⟩⟩ ∧
    Fault.kind ⟨.unreadable "\x0c", some ⟨"page", 1, 1⟩⟩ ≠ .unterminatedString := by
  refine ⟨by decide, by cbv, by decide⟩

end Lisp
