import Mathlib.Data.List.Forall2
import Lisp.Proofs.Printing.Text
import Lisp.Proofs.Reading.Numerals
import Lisp.Proofs.Reading.Recognition
import Lisp.Proofs.Reading.Scanning
import Lisp.Value.Equality

/-!
Reading undoes printing.  The text of a value is scanned as tokens that spell a
form with the same content, wherever the text stands in a source and however
deep, as long as the form does not nest too deeply.
-/

namespace Lisp

variable {H : Type}

/-- The names that can be written: atoms that stand for nothing else. -/
structure IsName (name : String) : Prop where
  nonempty : name ≠ ""
  atomChars : ∀ c ∈ name.toList, isAtomChar c = true
  not_point : name ≠ "."
  not_literal : ¬IsLiteral name

/-- The values whose text is source text for them.  A big integer must not fit
in a word. -/
inductive Value.Readable : Value H → Prop where
  | nil : Readable .nil
  | bool (b : Bool) : Readable (.bool b)
  | int (n : Int64) : Readable (.int n)
  | big {n : Int} (hbig : fitsWord n = false) : Readable (.big n)
  | str (s : String) : Readable (.str s)
  | ref {name : String} (place : Option Location) (hname : IsName name) :
      Readable (.ref name place)
  | pair (id : ObjectId) {car cdr : Value H} (place : Option Location)
      (hcar : Readable car) (hcdr : Readable cdr) :
      Readable (.pair id car cdr place)

mutual

/-- How many lists stand around the innermost part of a text: one more than
around the elements and the tail of its outermost list. -/
def Value.nesting : Value H → Nat
  | .pair _ car cdr _ => 1 + max car.nesting cdr.chainNesting
  | _ => 0

/-- The most that the elements and the tail of a chain nest. -/
def Value.chainNesting : Value H → Nat
  | .pair _ car cdr _ => max car.nesting cdr.chainNesting
  | _ => 0

end

/-- A form with the content of a value: taken in, it is equal to it. -/
def Value.Recovers (v : Value H) (form : Datum) : Prop :=
  ∀ (batch index : Nat) (todo : List (Value H × Value H)),
    identicalAll ((v, (Value.label batch form index).1) :: todo) =
      identicalAll todo

theorem Value.Recovers.pair {car cdr : Value H} {first rest : Datum}
    (hcar : car.Recovers first) (hcdr : cdr.Recovers rest) (id : ObjectId)
    (place written : Option Location) :
    (Value.pair id car cdr place).Recovers (.pair first rest written) := by
  intro batch index todo
  simp only [Value.label]
  rw [identicalAll]
  split
  · -- one cell equals itself without a look inside
    rfl
  · rw [hcar, hcdr]

/-- Forms other than cells are taken in as they are. -/
theorem Value.recovers_atom {v w : Value H} {form : Datum}
    (hlabel : ∀ batch index, (Value.label batch form index).1 = w)
    (hpair : v.isPair = false) (hsame : v.sameAtom w = true) :
    v.Recovers form := by
  intro batch index todo
  rw [hlabel, identicalAll]
  · rw [hsame, Bool.true_and]
  · rintro i a d p j b e q rfl
    simp [Value.isPair] at hpair

/-- What follows an element of a list inside `depth` lists and quotes, up to the
closing parenthesis, and the remaining chain it spells. -/
inductive SpellsRest (depth : Nat) : List Token → Datum → Prop where
  | close (closed : Location) : SpellsRest depth [⟨.closing, closed⟩] .nil
  | tail {tokens : List Token} {tail : Datum} (point closed : Location)
      (htail : Spells (depth + 1) tokens tail) :
      SpellsRest depth
        (⟨.atom ".", point⟩ :: (tokens ++ [⟨.closing, closed⟩])) tail
  | item {tokens rest : List Token} {item chain : Datum}
      (hitem : Spells (depth + 1) tokens item)
      (hrest : SpellsRest depth rest chain) :
      SpellsRest depth (tokens ++ rest) (.pair item chain none)

/-- The elements that follow, and how the list ends. -/
theorem SpellsRest.exists_pieces {depth : Nat} {rest : List Token}
    {chain : Datum} (hrest : SpellsRest depth rest chain) :
    ∃ pieces : List Piece,
      (∀ piece ∈ pieces, Spells (depth + 1) piece.1 piece.2) ∧
      ((∃ closed, rest = pieces.flatMap Prod.fst ++ [⟨.closing, closed⟩] ∧
        chain = Datum.chain (pieces.map Prod.snd) .nil) ∨
      ∃ point closed tokens tail, Spells (depth + 1) tokens tail ∧
        rest = pieces.flatMap Prod.fst ++
          ⟨.atom ".", point⟩ :: (tokens ++ [⟨.closing, closed⟩]) ∧
        chain = Datum.chain (pieces.map Prod.snd) tail) := by
  induction hrest with
  | close closed => exact ⟨[], by simp, .inl ⟨closed, rfl, rfl⟩⟩
  | tail point closed htail =>
      exact ⟨[], by simp, .inr ⟨point, closed, _, _, htail, rfl, rfl⟩⟩
  | @item tokens _ item _ hitem _ ih =>
      obtain ⟨pieces, hpieces, hend⟩ := ih
      refine ⟨(tokens, item) :: pieces,
        List.forall_mem_cons.2 ⟨hitem, hpieces⟩, ?_⟩
      rcases hend with
        ⟨closed, rfl, rfl⟩ | ⟨point, closed, last, tail, htail, rfl, rfl⟩
      · exact .inl ⟨closed, by simp, rfl⟩
      · exact .inr ⟨point, closed, last, tail, htail, by simp, rfl⟩

/-- A list spelled element by element. -/
theorem SpellsRest.list {depth : Nat} {tokens rest : List Token}
    {first chain : Datum} (hrest : SpellsRest depth rest chain)
    (hdepth : depth < maxNesting)
    (hfirst : Spells (depth + 1) tokens first) (opened : Location) :
    Spells depth (⟨.opening, opened⟩ :: (tokens ++ rest))
      (.pair first chain (some opened)) := by
  obtain ⟨pieces, hpieces, hend⟩ := hrest.exists_pieces
  have hitems : ∀ piece ∈ (tokens, first) :: pieces,
      Spells (depth + 1) piece.1 piece.2 :=
    List.forall_mem_cons.2 ⟨hfirst, hpieces⟩
  rcases hend with
    ⟨closed, rfl, rfl⟩ | ⟨point, closed, last, tail, htail, rfl, rfl⟩
  · simpa [Datum.chain] using Spells.list opened closed hdepth hitems
  · simpa [Datum.chain] using
      Spells.dotted opened point closed hdepth hitems htail

/-- Wherever the text of `v` begins, it is scanned as a form with its
content. -/
def ReadsBack (depth : Nat) (v : Value H) : Prop :=
  ∀ (place : Location) (before : List Token), ∃ last tokens form,
    Scanner.advance ⟨place, .gap, before⟩ v.text.toList = some last ∧
    last.Rests (tokens.reverse ++ before) ∧ Spells depth tokens form ∧
      v.Recovers form

/-- Wherever an element of a list ends whose remaining chain is `v`, the text
that follows is scanned as a chain with its content. -/
def RestReadsBack (depth : Nat) (v : Value H) : Prop :=
  ∀ (scanner : Scanner) (before : List Token), scanner.Rests before →
    ∃ last tokens chain, scanner.advance v.restText.toList = some last ∧
      last.Rests (tokens.reverse ++ before) ∧ SpellsRest depth tokens chain ∧
      v.Recovers chain

theorem readsBack_atom {depth : Nat} {v : Value H} {text : String}
    (hdepth : depth < maxNesting) (htext : v.text = text) (hne : text ≠ "")
    (hchars : ∀ c ∈ text.toList, isAtomChar c = true) (hpoint : text ≠ ".")
    (hrecovers : ∀ place, v.Recovers (.ofAtom text place)) :
    ReadsBack depth v := by
  intro place before
  obtain ⟨last, hlast, hrests⟩ :=
    Scanner.exists_advance_atom hne hchars place before
  refine ⟨last, [⟨.atom text, place⟩], .ofAtom text place, htext ▸ hlast,
    hrests, ?_, hrecovers place⟩
  by_cases hliteral : IsLiteral text
  · exact .literal hdepth hliteral
  · rw [Datum.ofAtom_name hliteral]
    exact .name hdepth hliteral hpoint

theorem restReadsBack_tail {depth : Nat} {v : Value H}
    (hrest : v.rest = [.verbatim " . ", .value v, .verbatim ")"])
    (hreads : ReadsBack (depth + 1) v) : RestReadsBack depth v := by
  intro scanner before hrests
  obtain ⟨gap, hblank⟩ := hrests.step_blank ' ' rfl
  have hpoint : Scanner.step ⟨gap, .gap, before⟩ '.' =
      some ⟨gap.after '.', .atom gap ".", before⟩ :=
    Scanner.step_atomChar '.' (by decide) gap before
  obtain ⟨next, hnext⟩ :=
    (Scanner.Rests.atom (gap.after '.') gap "." before).step_blank ' ' rfl
  obtain ⟨last, tokens, form, hadvance, hlast, hspells, hrecovers⟩ :=
    hreads next (⟨.atom ".", gap⟩ :: before)
  obtain ⟨closed, final, hclosing⟩ := hlast.step_closing
  have hchars : v.restText.toList =
      ' ' :: '.' :: ' ' :: (v.text.toList ++ [')']) := by
    simp [Value.restText_tail hrest]
  refine ⟨⟨final, .gap,
      ⟨.closing, closed⟩ :: (tokens.reverse ++ ⟨.atom ".", gap⟩ :: before)⟩,
    ⟨.atom ".", gap⟩ :: (tokens ++ [⟨.closing, closed⟩]), form, ?_, ?_,
    .tail gap closed hspells, hrecovers⟩
  · rw [hchars, Scanner.advance_cons hblank, Scanner.advance_cons hpoint,
      Scanner.advance_cons hnext, Scanner.advance_append hadvance,
      Scanner.advance_cons hclosing]
    rfl
  · simpa using Scanner.Rests.gap final _

theorem restReadsBack_nil (depth : Nat) :
    RestReadsBack depth (.nil : Value H) := by
  intro scanner before hrests
  obtain ⟨closed, final, hclosing⟩ := hrests.step_closing
  refine ⟨_, [⟨.closing, closed⟩], .nil, ?_, .gap final _, .close closed, ?_⟩
  · rw [Value.restText_nil]
    exact Scanner.advance_cons hclosing []
  · exact Value.recovers_atom (fun _ _ => rfl) rfl rfl

theorem restReadsBack_pair {depth : Nat} {car cdr : Value H}
    (hcar : ReadsBack (depth + 1) car) (hcdr : RestReadsBack depth cdr)
    (id : ObjectId) (place : Option Location) :
    RestReadsBack depth (.pair id car cdr place) := by
  intro scanner before hrests
  obtain ⟨gap, hblank⟩ := hrests.step_blank ' ' rfl
  obtain ⟨middle, tokens, item, hitem, hmiddle, hspells, hitemRecovers⟩ :=
    hcar gap before
  obtain ⟨last, rest, chain, hchain, hlast, hrest, hchainRecovers⟩ :=
    hcdr middle _ hmiddle
  have hchars : (Value.pair id car cdr place).restText.toList =
      ' ' :: (car.text.toList ++ cdr.restText.toList) := by
    simp [Value.restText_pair]
  refine ⟨last, tokens ++ rest, .pair item chain none, ?_, ?_,
    .item hspells hrest, hitemRecovers.pair hchainRecovers id place none⟩
  · rw [hchars, Scanner.advance_cons hblank, Scanner.advance_append hitem,
      hchain]
  · simpa using hlast

theorem readsBack_pair {depth : Nat} {car cdr : Value H}
    (hdepth : depth < maxNesting) (hcar : ReadsBack (depth + 1) car)
    (hcdr : RestReadsBack depth cdr) (id : ObjectId)
    (place : Option Location) : ReadsBack depth (.pair id car cdr place) := by
  intro opened before
  have hopening : Scanner.step ⟨opened, .gap, before⟩ '(' =
      some ⟨opened.after '(', .gap, ⟨.opening, opened⟩ :: before⟩ := rfl
  obtain ⟨middle, tokens, item, hitem, hmiddle, hspells, hitemRecovers⟩ :=
    hcar (opened.after '(') (⟨.opening, opened⟩ :: before)
  obtain ⟨last, rest, chain, hchain, hlast, hrest, hchainRecovers⟩ :=
    hcdr middle _ hmiddle
  have hchars : (Value.pair id car cdr place).text.toList =
      '(' :: (car.text.toList ++ cdr.restText.toList) := by
    simp [Value.text_pair]
  refine ⟨last, ⟨.opening, opened⟩ :: (tokens ++ rest),
    .pair item chain (some opened), ?_, ?_, hrest.list hdepth hspells opened,
    hitemRecovers.pair hchainRecovers id place (some opened)⟩
  · rw [hchars, Scanner.advance_cons hopening, Scanner.advance_append hitem,
      hchain]
  · simpa using hlast

theorem readsBack_nil {depth : Nat} (hdepth : depth < maxNesting) :
    ReadsBack depth (.nil : Value H) := by
  intro place before
  have htext : (Value.nil : Value H).text = "()" := Value.text_of_unfold rfl
  rw [htext]
  refine ⟨_, [⟨.opening, place⟩, ⟨.closing, place.after '('⟩], .nil, rfl,
    .gap _ _, .empty place _ hdepth, ?_⟩
  exact Value.recovers_atom (fun _ _ => rfl) rfl rfl

theorem readsBack_str {depth : Nat} (hdepth : depth < maxNesting) (s : String) :
    ReadsBack depth (.str s : Value H) := by
  intro place before
  have htext : (Value.str s : Value H).text = Quoted.encode s :=
    Value.text_of_unfold rfl
  obtain ⟨last, hlast, hrests⟩ := Scanner.exists_advance_encode s place before
  refine ⟨last,
    [⟨.str (String.ofList (s.toList.flatMap Quoted.encodeChar)), place⟩],
    .str s, htext ▸ hlast, hrests, .str hdepth (Quoted.decode_encode s), ?_⟩
  exact Value.recovers_atom (fun _ _ => rfl) rfl (beq_self_eq_true s)

theorem readsBack_bool {depth : Nat} (hdepth : depth < maxNesting) (b : Bool) :
    ReadsBack depth (.bool b : Value H) := by
  have htext : (Value.bool b : Value H).text = if b then "#t" else "#f" :=
    Value.text_of_unfold rfl
  have hatom : ∀ place,
      Datum.ofAtom (if b then "#t" else "#f") place = .bool b := by
    intro place
    cases b <;> rfl
  refine readsBack_atom hdepth htext ?_ ?_ ?_ ?_
  · cases b <;> decide
  · apply List.all_eq_true.1
    cases b <;> decide
  · cases b <;> decide
  · intro place
    rw [hatom]
    exact Value.recovers_atom (fun _ _ => rfl) rfl (beq_self_eq_true b)

theorem Datum.ofAtom_toString (n : Int) (place : Location) :
    Datum.ofAtom (toString n) place =
      if fitsWord n then .int (Int64.ofInt n) else .big n :=
  Datum.ofAtom_integer (integer?_toString n) place

/-- A value written as the digits of an integer. -/
theorem readsBack_integer {depth : Nat} {v : Value H} {n : Int}
    (hdepth : depth < maxNesting) (htext : v.text = toString n)
    (hrecovers :
      v.Recovers (if fitsWord n then .int (Int64.ofInt n) else .big n)) :
    ReadsBack depth v := by
  refine readsBack_atom hdepth htext (toString_int_ne rfl n)
    (fun _ hmem => isAtomChar_of_mem_toString hmem) (toString_int_ne rfl n) ?_
  intro place
  rw [Datum.ofAtom_toString]
  exact hrecovers

theorem readsBack_int {depth : Nat} (hdepth : depth < maxNesting) (n : Int64) :
    ReadsBack depth (.int n : Value H) := by
  refine readsBack_integer hdepth (Value.text_of_unfold rfl) ?_
  rw [if_pos (fitsWord_toInt n), Int64.ofInt_toInt]
  exact Value.recovers_atom (fun _ _ => rfl) rfl (beq_self_eq_true n)

theorem readsBack_big {depth : Nat} (hdepth : depth < maxNesting) {n : Int}
    (hbig : fitsWord n = false) : ReadsBack depth (.big n : Value H) := by
  refine readsBack_integer hdepth (Value.text_of_unfold rfl) ?_
  rw [hbig]
  exact Value.recovers_atom (fun _ _ => rfl) rfl (beq_self_eq_true n)

theorem readsBack_ref {depth : Nat} (hdepth : depth < maxNesting)
    {name : String} (hname : IsName name) (place : Option Location) :
    ReadsBack depth (.ref name place : Value H) := by
  refine readsBack_atom hdepth (Value.text_of_unfold rfl) hname.nonempty
    hname.atomChars hname.not_point ?_
  intro written
  rw [Datum.ofAtom_name hname.not_literal]
  exact Value.recovers_atom (fun _ _ => rfl) rfl (beq_self_eq_true name)

/-- A value reads back wherever the nesting leaves room for it, as a form and as
the remaining chain of a list. -/
structure ReadsWithin (v : Value H) : Prop where
  form : ∀ depth, v.nesting + depth < maxNesting → ReadsBack depth v
  chain : ∀ depth, v.chainNesting + (depth + 1) < maxNesting →
    RestReadsBack depth v

/-- As a tail, an atom is a form one list further in. -/
theorem readsWithin_atom {v : Value H} (hnesting : v.nesting = 0)
    (hrest : v.rest = [.verbatim " . ", .value v, .verbatim ")"])
    (hreads : ∀ depth, depth < maxNesting → ReadsBack depth v) :
    ReadsWithin v := by
  constructor
  · intro depth hdepth
    exact hreads depth (by omega)
  · intro depth hdepth
    exact restReadsBack_tail hrest (hreads (depth + 1) (by omega))

/-- A list is as deep as its first element one list further in, and as the rest
of its chain. -/
theorem ReadsWithin.pair {car cdr : Value H} (hcar : ReadsWithin car)
    (hcdr : ReadsWithin cdr) (id : ObjectId) (place : Option Location) :
    ReadsWithin (.pair id car cdr place) := by
  have hparts : ∀ depth,
      max car.nesting cdr.chainNesting + (depth + 1) < maxNesting →
      ReadsBack (depth + 1) car ∧ RestReadsBack depth cdr := by
    intro depth hdepth
    exact ⟨hcar.form (depth + 1) (by omega), hcdr.chain depth (by omega)⟩
  constructor
  · intro depth hdepth
    simp only [Value.nesting] at hdepth
    obtain ⟨hcar, hcdr⟩ := hparts depth (by omega)
    exact readsBack_pair (by omega) hcar hcdr id place
  · intro depth hdepth
    simp only [Value.chainNesting] at hdepth
    obtain ⟨hcar, hcdr⟩ := hparts depth hdepth
    exact restReadsBack_pair hcar hcdr id place

theorem Value.Readable.readsWithin {v : Value H} (hv : v.Readable) :
    ReadsWithin v := by
  induction hv with
  | nil =>
      constructor
      · intro depth hdepth
        exact readsBack_nil (by omega)
      · intro depth _
        exact restReadsBack_nil depth
  | bool b =>
      apply readsWithin_atom rfl rfl
      intro depth hdepth
      exact readsBack_bool hdepth b
  | int n =>
      apply readsWithin_atom rfl rfl
      intro depth hdepth
      exact readsBack_int hdepth n
  | big hbig =>
      apply readsWithin_atom rfl rfl
      intro depth hdepth
      exact readsBack_big hdepth hbig
  | str s =>
      apply readsWithin_atom rfl rfl
      intro depth hdepth
      exact readsBack_str hdepth s
  | ref place hname =>
      apply readsWithin_atom rfl rfl
      intro depth hdepth
      exact readsBack_ref hdepth hname place
  | pair id place _ _ ihcar ihcdr => exact ihcar.pair ihcdr id place

theorem SpellsAll.nil : SpellsAll [] [] :=
  ⟨[], by simp, rfl, rfl⟩

theorem SpellsAll.cons {tokens rest : List Token} {form : Datum}
    {forms : List Datum} (hrest : SpellsAll rest forms)
    (hform : Spells 0 tokens form) :
    SpellsAll (tokens ++ rest) (form :: forms) := by
  obtain ⟨pieces, hpieces, rfl, rfl⟩ := hrest
  exact ⟨(tokens, form) :: pieces,
    List.forall_mem_cons.2 ⟨hform, hpieces⟩, rfl, rfl⟩

/-- The texts of values that read back, a line each, are scanned as forms with
their contents. -/
theorem exists_advance_within {values : List (Value H)}
    (hvalues : ∀ v ∈ values, ReadsWithin v ∧ v.nesting < maxNesting)
    (place : Location) (before : List Token) :
    ∃ last tokens forms,
      Scanner.advance ⟨place, .gap, before⟩
        (String.intercalate "\n" (values.map Value.text)).toList = some last ∧
      last.Rests (tokens.reverse ++ before) ∧ SpellsAll tokens forms ∧
      List.Forall₂ Value.Recovers values forms := by
  induction values generalizing place before with
  | nil => exact ⟨_, [], [], rfl, .gap _ _, .nil, .nil⟩
  | cons v values ih =>
      obtain ⟨hreads, hnesting⟩ := hvalues v List.mem_cons_self
      have hothers := ih fun w hw => hvalues w (List.mem_cons_of_mem v hw)
      obtain ⟨middle, tokens, form, hadvance, hmiddle, hform, hrecovers⟩ :=
        hreads.form 0 hnesting place before
      rcases values with _ | ⟨w, values⟩
      · have hsingle :
            String.intercalate "\n" ([v].map Value.text) = v.text := by simp
        refine ⟨middle, tokens, [form], hsingle ▸ hadvance, hmiddle, ?_,
          .cons hrecovers .nil⟩
        simpa using SpellsAll.nil.cons hform
      · -- the newline completes the atom that `v` may end with
        obtain ⟨next, hnext⟩ := hmiddle.step_blank '\n' rfl
        obtain ⟨last, rest, forms, hrest, hlast, hforms, hall⟩ :=
          hothers next (tokens.reverse ++ before)
        refine ⟨last, tokens ++ rest, form :: forms, ?_, by simpa using hlast,
          hforms.cons hform, .cons hrecovers hall⟩
        rw [List.map_cons, List.map_cons, String.intercalate_cons_cons]
        simp only [String.toList_append, List.append_assoc]
        rw [Scanner.advance_append hadvance]
        exact (Scanner.advance_cons hnext _).trans hrest

/-- The texts of readable values, a line each, are scanned as forms with their
contents. -/
theorem exists_advance_lines {values : List (Value H)}
    (hvalues : ∀ v ∈ values, v.Readable ∧ v.nesting < maxNesting)
    (place : Location) (before : List Token) :
    ∃ last tokens forms,
      Scanner.advance ⟨place, .gap, before⟩
        (String.intercalate "\n" (values.map Value.text)).toList = some last ∧
      last.Rests (tokens.reverse ++ before) ∧ SpellsAll tokens forms ∧
      List.Forall₂ Value.Recovers values forms :=
  exists_advance_within
    (fun v hv => ⟨(hvalues v hv).1.readsWithin, (hvalues v hv).2⟩) place before

theorem Value.Recovers.identical {v : Value H} {form : Datum}
    (hrecovers : v.Recovers form) (batch : Nat) :
    v.identical (.ofDatum batch form) = true := by
  rw [Value.identical, Value.ofDatum, hrecovers]
  simp [identicalAll]

/-- Reading the texts of readable values, a line each, gives forms that are
taken in as equal values, in order. -/
theorem read_text_lines {values : List (Value H)}
    (hvalues : ∀ v ∈ values, v.Readable ∧ v.nesting < maxNesting)
    (file : String) :
    ∃ forms,
      read (String.intercalate "\n" (values.map Value.text)) file = .ok forms ∧
      List.Forall₂
        (fun v form => ∀ batch, v.identical (.ofDatum batch form) = true)
        values forms := by
  obtain ⟨last, tokens, forms, hadvance, hrests, hspells, hrecovers⟩ :=
    exists_advance_lines hvalues (Location.start file) []
  have htokens :
      tokenize (String.intercalate "\n" (values.map Value.text)) file =
        .ok tokens := by
    rw [tokenize, Scanner.start, Scanner.scan_eq_finish hadvance, hrests.finish]
    simp
  refine ⟨forms, ?_, hrecovers.imp fun _ _ hrecovers => hrecovers.identical⟩
  rw [read, htokens]
  exact hspells.parse_eq

/-- A dotted list with a name, a string that needs escapes and a big tail, and a
list inside a list. -/
def samplePage : List (Value Empty) :=
  [.pair (.made 0 0) (.ref "x-1" none)
    (.pair (.made 0 1) (.str "\"é\n😀\\") (.big 9223372036854775808) none) none,
    .pair (.made 0 2) (.pair (.made 0 3) .nil (.int (-5)) none) .nil none]

theorem samplePage_readable :
    ∀ v ∈ samplePage, v.Readable ∧ v.nesting < maxNesting := by
  have hname : IsName "x-1" :=
    ⟨by decide, List.all_eq_true.1 (by decide), by decide, by decide⟩
  have hbig : fitsWord 9223372036854775808 = false := by decide
  intro v hv
  simp only [samplePage, List.mem_cons, List.not_mem_nil, or_false] at hv
  rcases hv with rfl | rfl
  · exact ⟨.pair _ _ (.ref _ hname) (.pair _ _ (.str _) (.big hbig)), by decide⟩
  · exact ⟨.pair _ _ (.pair _ _ .nil (.int _)) .nil, by decide⟩

theorem samplePage_read_text :
    (∀ v ∈ samplePage, v.Readable ∧ v.nesting < maxNesting) ∧
    ∃ forms,
      read (String.intercalate "\n" (samplePage.map Value.text)) "page" =
        .ok forms ∧
      List.Forall₂
        (fun v form => ∀ batch, v.identical (.ofDatum batch form) = true)
        samplePage forms :=
  ⟨samplePage_readable, read_text_lines samplePage_readable "page"⟩

end Lisp
