import Lisp.Proofs.Reading.Recognition
import Lisp.Proofs.Reading.Scanning

/-!
Where reading goes wrong.  The tokens of a source have places in its file.  If
the tokens cannot be parsed, one of them is blamed; if there are no tokens, the
blame falls on the place where scanning stopped, right after the longest part of
the source that can be scanned by itself.
-/

namespace Lisp

/-- A text under the name of the file it comes from. -/
structure Source where
  text : String
  file : String

/-- Whether a place is that of a token of a source. -/
def Source.TokenAt (source : Source) (place : Location) : Prop :=
  place.file = source.file ∧
    ∃ tokens, tokenize source.text source.file = .ok tokens ∧
      ∃ token ∈ tokens, token.place = place

/-- Whether a scanner can get through a text that ends there. -/
def Scanner.Takes (scanner : Scanner) (chars : List Char) : Prop :=
  ∃ tokens, scanner.scan chars = .ok tokens

/-- Whether a scanner stops at a place in a text: it can get through what stands
before the place, but not if anything of what follows is added. -/
def Scanner.StopsIn (scanner : Scanner) (chars : List Char)
    (place : Location) : Prop :=
  ∃ before rest, chars = before ++ rest ∧ scanner.Takes before ∧
    (∀ more, more ≠ [] → more <+: rest → ¬ scanner.Takes (before ++ more)) ∧
    place = before.foldl Location.after scanner.place

/-- Whether scanning a source stops at a place. -/
def Source.StopsAt (source : Source) (place : Location) : Prop :=
  (Scanner.start source.file).StopsIn source.text.toList place

/-- Where the token began that a scanner is in the middle of. -/
def ScanMode.start? : ScanMode → Option Location
  | .gap | .comment => none
  | .atom start _ | .str start _ | .escape start _ => some start

/-- Where the string began that a scanner is in the middle of. -/
def ScanMode.string? : ScanMode → Option Location
  | .str start _ | .escape start _ => some start
  | _ => none

theorem ScanMode.start?_of_string? {mode : ScanMode} {start : Location}
    (hopened : mode.string? = some start) : mode.start? = some start := by
  cases mode with
  | gap | comment | atom => cases hopened
  | str | escape => exact hopened

/-- What reading one character does to a scanner. -/
structure Scanner.Stepped (scanner : Scanner) (c : Char) (next : Scanner) :
    Prop where
  place : next.place = scanner.place.after c
  tokens : ∀ token ∈ next.tokens, token ∈ scanner.tokens ∨
    token.place = scanner.place ∨ scanner.mode.start? = some token.place
  begun : ∀ start, next.mode.start? = some start →
    start = scanner.place ∨ scanner.mode.start? = some start
  /-- A string is opened here, or was open before. -/
  opened : ∀ start, next.mode.string? = some start →
    scanner.mode.string? = some start ∨
      scanner.mode.string? = none ∧ start = scanner.place

section Stepping

variable {scanner next : Scanner} {c : Char}

theorem Scanner.enter_cases (hentered : scanner.enter c = some next) :
    next.place = scanner.place.after c ∧
    (∀ token ∈ next.tokens,
      token ∈ scanner.tokens ∨ token.place = scanner.place) ∧
    ∀ start, next.mode.start? = some start → start = scanner.place := by
  unfold Scanner.enter at hentered
  split_ifs at hentered <;> cases hentered <;>
    simp +contextual [Scanner.move, Scanner.emit, ScanMode.start?, eq_comm]

/-- A scanner that is in no string reads a character as in a gap, or goes on
with an atom. -/
theorem Scanner.enter_stepped (houtside : scanner.mode.string? = none)
    {emitted : List Token}
    (hcompleted : ∀ token ∈ emitted, token ∈ scanner.tokens ∨
      scanner.mode.start? = some token.place)
    (hentered : Scanner.enter { scanner with tokens := emitted } c = some next) :
    scanner.Stepped c next := by
  obtain ⟨hplace, htokens, hbegun⟩ := Scanner.enter_cases hentered
  refine ⟨hplace, ?_, fun start hstarted => .inl (hbegun start hstarted), ?_⟩
  · intro token hmem
    rcases htokens token hmem with hold | hhere
    · exact (hcompleted token hold).imp_right .inr
    · exact .inr (.inl hhere)
  · intro start hopened
    exact .inr ⟨houtside, hbegun start (ScanMode.start?_of_string? hopened)⟩

theorem Scanner.step_stepped (hstepped : scanner.step c = some next) :
    scanner.Stepped c next := by
  obtain ⟨place, mode, tokens⟩ := scanner
  cases mode with
  | gap => exact enter_stepped rfl (fun token hmem => .inl hmem) hstepped
  | comment =>
      obtain rfl := Option.some.inj hstepped
      refine ⟨rfl, fun token hmem => .inl hmem, ?_, ?_⟩ <;>
        · intro start hstarted
          simp only [Scanner.move] at hstarted
          split at hstarted <;> cases hstarted
  | atom start text =>
      simp only [Scanner.step] at hstepped
      split at hstepped
      · obtain rfl := Option.some.inj hstepped
        exact ⟨rfl, fun token hmem => .inl hmem, fun _ hsame => .inr hsame,
          fun _ hopened => .inl hopened⟩
      · refine enter_stepped rfl ?_ hstepped
        intro token hmem
        rcases List.mem_cons.mp hmem with rfl | hmem
        · exact .inr rfl
        · exact .inl hmem
  | str start body =>
      simp only [Scanner.step] at hstepped
      split_ifs at hstepped
      · obtain rfl := Option.some.inj hstepped
        refine ⟨rfl, ?_, ?_, ?_⟩
        · intro token hmem
          rcases List.mem_cons.mp hmem with rfl | hmem
          · exact .inr (.inr rfl)
          · exact .inl hmem
        · rintro start ⟨⟩
        · rintro start ⟨⟩
      · obtain rfl := Option.some.inj hstepped
        exact ⟨rfl, fun token hmem => .inl hmem, fun _ hsame => .inr hsame,
          fun _ hopened => .inl hopened⟩
      · obtain rfl := Option.some.inj hstepped
        exact ⟨rfl, fun token hmem => .inl hmem, fun _ hsame => .inr hsame,
          fun _ hopened => .inl hopened⟩
  | escape start body =>
      obtain rfl := Option.some.inj hstepped
      exact ⟨rfl, fun token hmem => .inl hmem, fun _ hsame => .inr hsame,
        fun _ hopened => .inl hopened⟩

end Stepping

/-- A scanner all of whose places are in one file. -/
structure Scanner.InFile (file : String) (scanner : Scanner) : Prop where
  here : scanner.place.file = file
  tokens : ∀ token ∈ scanner.tokens, token.place.file = file
  begun : ∀ start, scanner.mode.start? = some start → start.file = file

section Files

variable {file : String}

theorem Scanner.InFile.step {scanner next : Scanner} {c : Char}
    (hinFile : scanner.InFile file) (hstepped : scanner.Stepped c next) :
    next.InFile file where
  here := by
    rw [hstepped.place, Location.after_file]
    exact hinFile.here
  tokens := by
    intro token hmem
    rcases hstepped.tokens token hmem with hold | hhere | hbegun
    · exact hinFile.tokens token hold
    · rw [hhere]
      exact hinFile.here
    · exact hinFile.begun token.place hbegun
  begun := by
    intro start hstarted
    rcases hstepped.begun start hstarted with rfl | hbegun
    · exact hinFile.here
    · exact hinFile.begun start hbegun

theorem Scanner.InFile.finish {scanner : Scanner} {tokens : List Token}
    (hinFile : scanner.InFile file) (hfinished : scanner.finish = .ok tokens) :
    ∀ token ∈ tokens, token.place.file = file := by
  obtain ⟨place, mode, done⟩ := scanner
  cases mode with
  | gap | comment =>
      obtain rfl := Except.ok.inj hfinished
      exact fun token hmem => hinFile.tokens token (List.mem_reverse.mp hmem)
  | atom start text =>
      obtain rfl := Except.ok.inj hfinished
      intro token hmem
      rcases List.mem_cons.mp (List.mem_reverse.mp hmem) with rfl | hmem
      · exact hinFile.begun start rfl
      · exact hinFile.tokens token hmem
  | str | escape => cases hfinished

theorem Scanner.InFile.scan {scanner : Scanner} {chars : List Char}
    {tokens : List Token} (hinFile : scanner.InFile file)
    (hscanned : scanner.scan chars = .ok tokens) :
    ∀ token ∈ tokens, token.place.file = file := by
  induction chars generalizing scanner with
  | nil => exact hinFile.finish hscanned
  | cons c chars ih =>
      rw [Scanner.scan] at hscanned
      split at hscanned
      · next next hstepped => exact ih (hinFile.step (step_stepped hstepped)) hscanned
      · cases hscanned

/-- Every token of a source has its place in the file of the source. -/
theorem Source.tokenAt {source : Source} {tokens : List Token}
    (hscanned : tokenize source.text source.file = .ok tokens) {token : Token}
    (hmem : token ∈ tokens) : source.TokenAt token.place := by
  have hstart : (Scanner.start source.file).InFile source.file :=
    ⟨rfl, fun _ hmem => (nomatch hmem), fun _ hnone => (nomatch hnone)⟩
  exact ⟨hstart.scan hscanned token hmem, tokens, hscanned, token, hmem, rfl⟩

end Files

section Stopping

variable {scanner next : Scanner} {c : Char}

theorem Scanner.takes_nil_iff :
    scanner.Takes [] ↔ scanner.mode.string? = none := by
  obtain ⟨place, mode, tokens⟩ := scanner
  cases mode <;> simp [Scanner.Takes, Scanner.scan, Scanner.finish,
    ScanMode.string?]

theorem Scanner.takes_cons_iff (hstepped : scanner.step c = some next)
    (chars : List Char) : scanner.Takes (c :: chars) ↔ next.Takes chars := by
  rw [Scanner.Takes, Scanner.scan, hstepped]
  rfl

theorem Scanner.not_takes_cons (hstuck : scanner.step c = none)
    (chars : List Char) : ¬ scanner.Takes (c :: chars) := by
  rintro ⟨tokens, hscanned⟩
  rw [Scanner.scan, hstuck] at hscanned
  cases hscanned

/-- Inside a string every character can be read. -/
theorem Scanner.string?_of_stuck (hstuck : scanner.step c = none) :
    scanner.mode.string? = none := by
  obtain ⟨place, mode, tokens⟩ := scanner
  cases mode with
  | gap | comment | atom => rfl
  | str start body =>
      simp only [Scanner.step] at hstuck
      split_ifs at hstuck
  | escape => cases hstuck

theorem Scanner.stopsIn_here {chars : List Char}
    (houtside : scanner.mode.string? = none)
    (hdead : ∀ more, more <+: chars → ¬ scanner.Takes (c :: more)) :
    scanner.StopsIn (c :: chars) scanner.place := by
  refine ⟨[], c :: chars, rfl, takes_nil_iff.mpr houtside, ?_, rfl⟩
  intro more hnonempty hbegins
  obtain ⟨first, others, rfl⟩ := List.exists_cons_of_ne_nil hnonempty
  obtain ⟨rfl, hshorter⟩ := List.cons_prefix_cons.mp hbegins
  exact hdead others hshorter

theorem Scanner.StopsIn.cons {chars : List Char} {place : Location}
    (hstops : next.StopsIn chars place) (hstepped : scanner.step c = some next) :
    scanner.StopsIn (c :: chars) place := by
  obtain ⟨before, rest, rfl, htaken, hdead, rfl⟩ := hstops
  refine ⟨c :: before, rest, rfl, ?_, ?_, ?_⟩
  · exact (takes_cons_iff hstepped before).mpr htaken
  · intro more hnonempty hbegins htaken
    exact hdead more hnonempty hbegins
      ((takes_cons_iff hstepped (before ++ more)).mp htaken)
  · rw [(step_stepped hstepped).place]
    rfl

/-- How scanning fails.  Either it stops somewhere in the text, or it never
leaves a string that was open from the start, and the beginning of that string
is blamed. -/
theorem Scanner.stops {chars : List Char} {fault : Fault}
    (hfails : scanner.scan chars = .error fault) :
    ∃ place, fault.place = some place ∧
      (scanner.StopsIn chars place ∨ scanner.mode.string? = some place ∧
        ∀ more, more <+: chars → ¬ scanner.Takes more) := by
  induction chars generalizing scanner with
  | nil =>
      obtain ⟨place, mode, tokens⟩ := scanner
      cases mode with
      | gap | comment | atom => cases hfails
      | str start body | escape start body =>
          cases hfails
          refine ⟨start, rfl, .inr ⟨rfl, ?_⟩⟩
          intro more hnone
          rw [List.prefix_nil.mp hnone, Scanner.takes_nil_iff]
          exact Option.some_ne_none start
  | cons c chars ih =>
      rw [Scanner.scan] at hfails
      split at hfails
      · next next hstepped =>
          obtain ⟨place, hblamed, hstops | ⟨hopened, hdead⟩⟩ := ih hfails
          · exact ⟨place, hblamed, .inl (hstops.cons hstepped)⟩
          -- The string was opened by `c`, or was open before.
          · have hdeadToo : ∀ more, more <+: chars →
                ¬ scanner.Takes (c :: more) := fun more hbegins htaken =>
              hdead more hbegins ((takes_cons_iff hstepped more).mp htaken)
            refine ⟨place, hblamed, ?_⟩
            rcases (step_stepped hstepped).opened place hopened with
              hbefore | ⟨houtside, rfl⟩
            · refine .inr ⟨hbefore, fun more hbegins => ?_⟩
              cases more with
              | nil =>
                  rw [takes_nil_iff, hbefore]
                  exact Option.some_ne_none place
              | cons first others =>
                  obtain ⟨rfl, hshorter⟩ := List.cons_prefix_cons.mp hbegins
                  exact hdeadToo others hshorter
            · exact .inl (stopsIn_here houtside hdeadToo)
      · next hstuck =>
          cases hfails
          exact ⟨scanner.place, rfl, .inl (stopsIn_here (string?_of_stuck hstuck)
            fun more _ => not_takes_cons hstuck more)⟩

end Stopping

/-- A source without tokens is blamed where scanning it stops. -/
theorem Source.stopsAt {source : Source} {fault : Fault}
    (hfails : tokenize source.text source.file = .error fault) :
    ∃ place, fault.place = some place ∧ source.StopsAt place := by
  obtain ⟨place, hblamed, hstops | ⟨hopened, -⟩⟩ := Scanner.stops hfails
  · exact ⟨place, hblamed, hstops⟩
  · cases hopened

section Parsing

theorem Reader.enter_fault {reader : Reader} {token : Token} {fault : Fault}
    (hfails : reader.enter token = .error fault) :
    fault.place = some token.place := by
  unfold Reader.enter at hfails
  split at hfails
  · cases hfails
    rfl
  split at hfails
  · cases hfails
  · cases hfails
    rfl
  · cases hfails
  · split at hfails
    · cases hfails
    · cases hfails
      rfl
  · split at hfails
    · cases hfails
      rfl
    · cases hfails

/-- A token that cannot be read is itself to blame. -/
theorem Reader.step_fault {reader : Reader} {token : Token} {fault : Fault}
    (hfails : reader.step token = .error fault) :
    fault.place = some token.place := by
  unfold Reader.step at hfails
  split at hfails
  · split at hfails
    · cases hfails
    · cases hfails
      rfl
  split at hfails
  · split_ifs at hfails
    · cases hfails
      rfl
    · exact Reader.enter_fault hfails
  · split_ifs at hfails
    · cases hfails
      rfl
    · exact Reader.enter_fault hfails
  · exact Reader.enter_fault hfails

/-- What is still open where the tokens end was opened by one of them. -/
theorem Reached.finish_fault {tokens : List Token} {reader : Reader}
    {fault : Fault} (hreached : Reached tokens reader)
    (hfails : reader.finish = .error fault) :
    ∃ token ∈ tokens, fault.place = some token.place := by
  cases hreached with
  | @ending _ _ _ _ opened _ _ henclosed _ =>
      cases hfails
      cases henclosed with
      | dotted => exact ⟨⟨.opening, opened⟩, by simp, rfl⟩
  | between henclosed =>
      cases henclosed with
      | top => cases hfails
      | list opened | dotted opened =>
          cases hfails
          exact ⟨⟨.opening, opened⟩, by simp, rfl⟩
      | quote mark =>
          cases hfails
          exact ⟨⟨.quote, mark⟩, by simp, rfl⟩

/-- Tokens that spell no forms are blamed at the place of one of them. -/
theorem parse_fault {tokens : List Token} {fault : Fault}
    (hfails : parse tokens = .error fault) :
    ∃ token ∈ tokens, fault.place = some token.place := by
  rcases parse_error_cases hfails with hrun | ⟨last, -, hreached, hends⟩
  · obtain ⟨token, hmem, next, hstep⟩ := foldlM_step_stops hrun
    exact ⟨token, hmem, Reader.step_fault hstep⟩
  · exact hreached.finish_fault hends

end Parsing

/-- A source that cannot be read is blamed at one of its tokens, or, if it has
none, where scanning it stops. -/
theorem Source.read_fault {source : Source} {fault : Fault}
    (hfails : read source.text source.file = .error fault) :
    ∃ place, fault.place = some place ∧
      (source.TokenAt place ∨
        tokenize source.text source.file = .error fault ∧
          source.StopsAt place) := by
  cases hscanned : tokenize source.text source.file with
  | error trouble =>
      rw [read, hscanned] at hfails
      cases hfails
      obtain ⟨place, hblamed, hstops⟩ := Source.stopsAt hscanned
      exact ⟨place, hblamed, .inr ⟨rfl, hstops⟩⟩
  | ok tokens =>
      rw [read, hscanned] at hfails
      obtain ⟨token, hmem, hblamed⟩ := parse_fault hfails
      exact ⟨token.place, hblamed, .inl (Source.tokenAt hscanned hmem)⟩

/-- A source that can be read: its tokens spell its forms. -/
theorem Source.spellsAll {source : Source} {forms : List Datum}
    (hreads : read source.text source.file = .ok forms) :
    ∃ tokens, SpellsAll tokens forms ∧
      ∀ token ∈ tokens, source.TokenAt token.place := by
  cases hscanned : tokenize source.text source.file with
  | error trouble =>
      rw [read, hscanned] at hreads
      cases hreads
  | ok tokens =>
      rw [read, hscanned] at hreads
      exact ⟨tokens, spellsAll_of_parse hreads,
        fun token => Source.tokenAt hscanned⟩

end Lisp
