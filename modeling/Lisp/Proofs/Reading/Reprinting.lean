import Lisp.Proofs.Arithmetic.Order
import Lisp.Proofs.Printing.Floats
import Lisp.Proofs.Reading.RoundTrip
import Lisp.Proofs.Reading.Joining

/-!
What has been read is printed and read again.  Every form of a source comes back as
an equal one, with one exception: a float too large to be finite is written as a
word, and comes back as the name it is written as.
-/

namespace Lisp

open Binary64

variable {H : Type}

/-- A form as it is read again.  An infinite float is written as a word. -/
def Datum.respelled : Datum → Datum
  | .float x =>
      if x.isInf then .ref (if isNegative x then "-inf" else "inf") none
      else .float x
  | .pair car cdr place => .pair car.respelled cdr.respelled place
  | form => form

/-- Whether no float of a form is infinite. -/
def Datum.IsFinite : Datum → Prop
  | .float x => x.isInf = false
  | .pair car cdr _ => car.IsFinite ∧ cdr.IsFinite
  | _ => True

theorem Datum.respelled_of_isFinite {form : Datum} (hfinite : form.IsFinite) :
    form.respelled = form := by
  induction form with
  | float x =>
      have hx : x.isInf = false := hfinite
      simp [respelled, hx]
  | pair car cdr place ihcar ihcdr =>
      rw [respelled, ihcar hfinite.1, ihcdr hfinite.2]
  | _ => rfl

section Floats

/-- No float is read as the one that is not a number. -/
theorem isNaN_of_float? {text : List Char} {x : Float}
    (hread : float? text = some x) : x.isNaN = false := by
  obtain ⟨parts, -, rfl⟩ := Option.map_eq_some_iff.mp hread
  exact isNaN_ofMagnitude _ (ofDecimal_le _ _ _)

/-- The magnitude of a finite float. -/
theorem magnitude_lt_infinity {x : Float} (hnumber : x.isNaN = false)
    (hfinite : x.isInf = false) : magnitude x < infinity := by
  have hle := (isNaN_iff x).not.mp (Bool.eq_false_iff.mp hnumber)
  have hne := (isInf_iff x).not.mp (Bool.eq_false_iff.mp hfinite)
  omega

/-- A finite float reads back from its text. -/
theorem readsBack_float {depth : Nat} (hdepth : depth < maxNesting) {x : Float}
    (hnumber : x.isNaN = false) (hfinite : x.isInf = false) :
    ReadsBack depth (.float x : Value H) := by
  obtain ⟨hinteger, hfloat⟩ := float?_text (magnitude_lt_infinity hnumber hfinite)
  have htext : IsFloat (floatFormat.text x).toList := by
    rw [← isSome_float?_iff, hfloat]
    rfl
  have hother : ∀ text : String, float? text.toList = none →
      floatFormat.text x ≠ text := by
    rintro text hnone rfl
    rw [hfloat] at hnone
    cases hnone
  refine readsBack_atom hdepth (Value.text_of_unfold rfl) (hother "" rfl)
    htext.isAtomChar (hother "." rfl) ?_
  intro place
  rw [Datum.ofAtom_float hinteger hfloat]
  refine Value.recovers_atom (fun _ _ => rfl) rfl ?_
  exact (Number.beq_float_self x).trans (by rw [hnumber, Bool.not_false])

theorem isName_infinity (negative : Bool) :
    IsName (if negative then "-inf" else "inf") := by
  cases negative
  · exact ⟨by decide, List.all_eq_true.1 (by decide), by decide, by decide⟩
  · exact ⟨by decide, List.all_eq_true.1 (by decide), by decide, by decide⟩

end Floats

section Texts

/-- An infinite float is written like the name it comes to be. -/
theorem text_infinite {x : Float} (hinfinite : x.isInf = true) :
    (Value.float x : Value H).text =
      (Value.ref (if isNegative x then "-inf" else "inf") none : Value H).text := by
  rw [Value.text_of_unfold rfl, Value.text_of_unfold rfl]
  exact text_of_infinite ((isInf_iff x).mp hinfinite)

/-- A form and its respelling are written alike, whatever cells they are taken in
as. -/
theorem text_respelled (form : Datum) :
    ∀ batch index next start,
      (Value.label batch form index : Value H × Nat).1.text =
        (Value.label next form.respelled start : Value H × Nat).1.text ∧
      (Value.label batch form index : Value H × Nat).1.restText =
        (Value.label next form.respelled start : Value H × Nat).1.restText := by
  induction form with
  | float x =>
      intro batch index next start
      cases hinfinite : x.isInf with
      | false => simp [Datum.respelled, hinfinite, Value.label]
      | true =>
          have htext := text_infinite (H := H) hinfinite
          simp only [Datum.respelled, hinfinite, if_true, Value.label]
          exact ⟨htext, by rw [Value.restText_tail rfl, Value.restText_tail rfl, htext]⟩
  | pair car cdr place ihcar ihcdr =>
      intro batch index next start
      simp only [Datum.respelled, Value.label, Value.text_pair, Value.restText_pair]
      rw [(ihcar batch _ next _).1, (ihcdr batch _ next _).2]
      exact ⟨rfl, rfl⟩
  | _ => exact fun _ _ _ _ => ⟨rfl, rfl⟩

end Texts

section Nesting

/-- A form that, respelled, reads back inside `depth` lists and quotes. -/
def Datum.Rereads (H : Type) (depth : Nat) (form : Datum) : Prop :=
  ∀ batch index,
    ReadsWithin (Value.label batch form.respelled index : Value H × Nat).1 ∧
    (Value.label batch form.respelled index : Value H × Nat).1.nesting + depth <
      maxNesting

/-- The same for the remaining chain of a list. -/
def Datum.ChainRereads (H : Type) (depth : Nat) (chain : Datum) : Prop :=
  ∀ batch index,
    ReadsWithin (Value.label batch chain.respelled index : Value H × Nat).1 ∧
    (Value.label batch chain.respelled index : Value H × Nat).1.chainNesting + depth <
      maxNesting

theorem Value.chainNesting_le (v : Value H) : v.chainNesting ≤ v.nesting := by
  cases v with
  | pair => exact Nat.le_add_left _ 1
  | _ => exact le_rfl

variable {depth : Nat}

/-- As a tail, a form nests no deeper than by itself. -/
theorem Datum.Rereads.chain {form : Datum} (hform : form.Rereads H depth) :
    form.ChainRereads H depth := by
  intro batch index
  obtain ⟨hreads, hroom⟩ := hform batch index
  exact ⟨hreads, lt_of_le_of_lt (Nat.add_le_add_right (Value.chainNesting_le _) _) hroom⟩

theorem Datum.rereads_leaf {form : Datum} {v : Value H} (hdepth : depth < maxNesting)
    (hlabel : ∀ batch index, (Value.label batch form.respelled index).1 = v)
    (hreads : ReadsWithin v) (hnesting : v.nesting = 0) : form.Rereads H depth := by
  intro batch index
  rw [hlabel]
  exact ⟨hreads, by omega⟩

theorem Datum.Rereads.pair {car cdr : Datum} (hcar : car.Rereads H (depth + 1))
    (hcdr : cdr.ChainRereads H (depth + 1)) (place : Option Location) :
    (Datum.pair car cdr place).Rereads H depth := by
  intro batch index
  obtain ⟨hcarReads, hcarRoom⟩ := hcar batch (index + 1)
  obtain ⟨hcdrReads, hcdrRoom⟩ := hcdr batch
    (Value.label batch car.respelled (index + 1) : Value H × Nat).2
  refine ⟨hcarReads.pair hcdrReads _ _, ?_⟩
  simp only [Datum.respelled, Value.label, Value.nesting]
  omega

theorem Datum.Rereads.chain_pair {car cdr : Datum} (hcar : car.Rereads H depth)
    (hcdr : cdr.ChainRereads H depth) (place : Option Location) :
    (Datum.pair car cdr place).ChainRereads H depth := by
  intro batch index
  obtain ⟨hcarReads, hcarRoom⟩ := hcar batch (index + 1)
  obtain ⟨hcdrReads, hcdrRoom⟩ := hcdr batch
    (Value.label batch car.respelled (index + 1) : Value H × Nat).2
  refine ⟨hcarReads.pair hcdrReads _ _, ?_⟩
  simp only [Datum.respelled, Value.label, Value.chainNesting]
  omega

theorem Datum.chainRereads_chain {items : List Datum} {tail : Datum}
    (hitems : ∀ item ∈ items, item.Rereads H depth)
    (htail : tail.ChainRereads H depth) : (Datum.chain items tail).ChainRereads H depth := by
  induction items with
  | nil => exact htail
  | cons item items ih =>
      obtain ⟨hitem, hrest⟩ := List.forall_mem_cons.mp hitems
      exact hitem.chain_pair (ih hrest) none

theorem Datum.chainRereads_nil (hdepth : depth < maxNesting) :
    Datum.nil.ChainRereads H depth :=
  (rereads_leaf hdepth (fun _ _ => rfl) Value.Readable.nil.readsWithin rfl).chain

theorem Datum.Rereads.depth_lt {form : Datum} (hform : form.Rereads H depth) :
    depth < maxNesting :=
  lt_of_le_of_lt (Nat.le_add_left _ _) (hform 0 0).2

/-- A list of forms that read back one list further in. -/
theorem Datum.rereads_list {first : Piece} {rest : List Piece} {tail : Datum}
    (hitems : ∀ piece ∈ first :: rest, piece.2.Rereads H (depth + 1))
    (htail : tail.ChainRereads H (depth + 1)) (place : Option Location) :
    (Datum.pair first.2 (Datum.chain (rest.map Prod.snd) tail) place).Rereads H
      depth := by
  obtain ⟨hfirst, hrest⟩ := List.forall_mem_cons.mp hitems
  exact hfirst.pair (chainRereads_chain (List.forall_mem_map.mpr hrest) htail) place

end Nesting

section Leaves

variable {depth : Nat}

theorem rereads_float (hdepth : depth < maxNesting) {x : Float}
    (hnumber : x.isNaN = false) : (Datum.float x).Rereads H depth := by
  cases hinfinite : x.isInf with
  | false =>
      have hreads : ReadsWithin (Value.float x : Value H) :=
        readsWithin_atom rfl rfl fun _ hroom => readsBack_float hroom hnumber hinfinite
      exact Datum.rereads_leaf hdepth
        (fun _ _ => by simp [Datum.respelled, hinfinite, Value.label]) hreads rfl
  | true =>
      have hreadable := Value.Readable.ref (H := H) none (isName_infinity (isNegative x))
      exact Datum.rereads_leaf hdepth
        (fun _ _ => by simp [Datum.respelled, hinfinite, Value.label])
        hreadable.readsWithin rfl

/-- A form that is no cell reads back if it is readable as a value. -/
theorem rereads_readable (hdepth : depth < maxNesting) {form : Datum} {v : Value H}
    (hlabel : ∀ batch index, (Value.label batch form.respelled index).1 = v)
    (hv : v.Readable) (hnesting : v.nesting = 0) : form.Rereads H depth :=
  Datum.rereads_leaf hdepth hlabel hv.readsWithin hnesting

theorem rereads_ref (hdepth : depth < maxNesting) {name : String} (hname : IsName name)
    (place : Option Location) : (Datum.ref name place).Rereads H depth :=
  rereads_readable hdepth (fun _ _ => rfl) (.ref place hname) rfl

/-- Whatever an atom stands for can be written and read again. -/
theorem rereads_ofAtom (hdepth : depth < maxNesting) {text : String} (hne : text ≠ "")
    (hchars : ∀ c ∈ text.toList, isAtomChar c = true) (hpoint : text ≠ ".")
    (place : Location) : (Datum.ofAtom text place).Rereads H depth := by
  unfold Datum.ofAtom
  split_ifs with htrue hfalse
  · exact rereads_readable hdepth (fun _ _ => rfl) (.bool true) rfl
  · exact rereads_readable hdepth (fun _ _ => rfl) (.bool false) rfl
  split
  · next n hinteger =>
      split
      · exact rereads_readable hdepth (fun _ _ => rfl) (.int _) rfl
      · next hbig =>
          exact rereads_readable hdepth (fun _ _ => rfl)
            (.big (Bool.eq_false_iff.mpr hbig)) rfl
  · next hinteger =>
      split
      · next x hfloat => exact rereads_float hdepth (isNaN_of_float? hfloat)
      · next hfloat =>
          have hname : ¬ IsLiteral text := by
            simp [IsLiteral, htrue, hfalse, hinteger, hfloat]
          exact rereads_ref hdepth ⟨hne, hchars, hpoint, hname⟩ (some place)

end Leaves

theorem TokenKind.Written.isAtomText {text : String} {written : List Char}
    (hwritten : TokenKind.Written (.atom text) written) :
    text ≠ "" ∧ ∀ c ∈ text.toList, isAtomChar c = true := by
  cases hwritten with
  | atom hne hchars =>
      constructor
      · simpa [← String.toList_inj] using hne
      · intro c hc
        rw [String.toList_ofList] at hc
        exact (isAtomChar_iff c).mpr (hchars c hc)

/-- Whether every token of a list is one that a source can hold. -/
def AllWritten (tokens : List Token) : Prop :=
  ∀ token ∈ tokens, ∃ written, token.kind.Written written

theorem AllWritten.piece {pieces : List Piece}
    (hwritten : AllWritten (pieces.flatMap Prod.fst)) {piece : Piece}
    (hpiece : piece ∈ pieces) : AllWritten piece.1 :=
  fun token hmem => hwritten token (List.mem_flatMap_of_mem hpiece hmem)

theorem AllWritten.atom {text : String} {place : Location}
    (hwritten : AllWritten [⟨.atom text, place⟩]) :
    text ≠ "" ∧ ∀ c ∈ text.toList, isAtomChar c = true := by
  obtain ⟨written, hatom⟩ := hwritten _ (List.mem_singleton_self _)
  exact hatom.isAtomText

theorem Lexes.allWritten {file : String} {before text : List Char}
    {afterAtom : Bool} {tokens : List Token}
    (hlexes : Lexes file before afterAtom text tokens) : AllWritten tokens := by
  induction hlexes with
  | done => exact List.forall_mem_nil _
  | token _ hkind _ _ ih => exact List.forall_mem_cons.mpr ⟨⟨_, hkind⟩, ih⟩

theorem isName_quote : IsName "quote" :=
  ⟨by decide, List.all_eq_true.1 (by decide), by decide, by decide⟩

/-- A form that tokens of a source spell can be written and read again. -/
theorem Spells.rereads {depth : Nat} {tokens : List Token} {form : Datum}
    (hform : Spells depth tokens form) (hwritten : AllWritten tokens) :
    form.Rereads H depth := by
  induction hform with
  | @literal _ text place hdepth hliteral =>
      obtain ⟨hne, hchars⟩ := hwritten.atom
      have hpoint : text ≠ "." := fun h => not_isLiteral_point (h ▸ hliteral)
      exact rereads_ofAtom hdepth hne hchars hpoint place
  | @name _ text place hdepth hname hpoint =>
      obtain ⟨hne, hchars⟩ := hwritten.atom
      exact rereads_ref hdepth ⟨hne, hchars, hpoint, hname⟩ (some place)
  | @str _ _ s _ hdepth =>
      exact rereads_readable hdepth (fun _ _ => rfl) (.str s) rfl
  | quote mark _ _ ih =>
      have hform := ih fun token hmem => hwritten token (List.mem_cons_of_mem _ hmem)
      have hroom := hform.depth_lt
      have hrest := hform.chain_pair (Datum.chainRereads_nil hroom) none
      exact (rereads_ref hroom isName_quote (some mark)).pair hrest (some mark)
  | empty opened closed hdepth =>
      exact rereads_readable hdepth (fun _ _ => rfl) .nil rfl
  | @list depth first rest opened closed _ _ ih =>
      have hpieces : AllWritten ((first :: rest).flatMap Prod.fst) := fun token hmem =>
        hwritten token (List.mem_cons_of_mem _ (List.mem_append_left _ hmem))
      have hitems : ∀ piece ∈ first :: rest, piece.2.Rereads H (depth + 1) :=
        fun piece hpiece => ih piece hpiece (hpieces.piece hpiece)
      have hroom := (hitems first List.mem_cons_self).depth_lt
      exact Datum.rereads_list hitems (Datum.chainRereads_nil hroom) (some opened)
  | @dotted depth first rest _ _ opened point closed _ _ _ ih ihtail =>
      have hpieces : AllWritten ((first :: rest).flatMap Prod.fst) := fun token hmem =>
        hwritten token (List.mem_cons_of_mem _ (List.mem_append_left _ hmem))
      have hitems : ∀ piece ∈ first :: rest, piece.2.Rereads H (depth + 1) :=
        fun piece hpiece => ih piece hpiece (hpieces.piece hpiece)
      have htail := ihtail fun token hmem => hwritten token (by simp [hmem])
      exact Datum.rereads_list hitems htail.chain (some opened)

/-- The forms of a source can be written and read again. -/
theorem rereads_of_read {source file : String} {forms : List Datum}
    (hread : read source file = .ok forms) : ∀ form ∈ forms, form.Rereads H 0 := by
  obtain ⟨tokens, hlexes, pieces, hpieces, rfl, rfl⟩ := exists_tokens_of_read hread
  intro form hform
  obtain ⟨piece, hpiece, rfl⟩ := List.mem_map.mp hform
  exact (hpieces piece hpiece).rereads (hlexes.allWritten.piece hpiece)

/-- Values that read back within a form, a line each, are read as such forms. -/
theorem read_lines_within {values : List (Value H)}
    (hvalues : ∀ v ∈ values, ReadsWithin v ∧ v.nesting < maxNesting) (file : String) :
    ∃ forms, read (String.intercalate "\n" (values.map Value.text)) file = .ok forms ∧
      List.Forall₂ Value.Recovers values forms := by
  obtain ⟨last, tokens, forms, hadvance, hrests, hspells, hrecovers⟩ :=
    exists_advance_within hvalues (Location.start file) []
  have htokens : tokenize (String.intercalate "\n" (values.map Value.text)) file =
      .ok tokens := by
    rw [tokenize, Scanner.start, Scanner.scan_eq_finish hadvance, hrests.finish]
    simp
  refine ⟨forms, ?_, hrecovers⟩
  rw [read, htokens]
  exact hspells.parse_eq

/-- What is read from a source comes back when it is printed, a form a line, and
read again: a form whose floats are finite equals the one that comes back, and in
any other form each infinite float comes back as the name it is written as. -/
theorem read_text_again {source file : String} {forms : List Datum}
    (hread : read source file = .ok forms) (page : String) (batch : Nat) :
    ∃ again,
      read (String.intercalate "\n"
        (forms.map fun form => (Value.ofDatum batch form : Value H).text)) page =
          .ok again ∧
      List.Forall₂
        (fun form other => ∀ next,
          (form.IsFinite →
            (Value.ofDatum batch form : Value H).identical (.ofDatum next other) =
              true) ∧
          (Value.ofDatum batch form.respelled : Value H).identical
            (.ofDatum next other) = true)
        forms again := by
  have hrereads := rereads_of_read (H := H) hread
  have htexts : (forms.map fun form => (Value.ofDatum batch form : Value H).text) =
      (forms.map fun form => (Value.ofDatum batch form.respelled : Value H)).map
        Value.text := by
    rw [List.map_map]
    exact List.map_congr_left fun form _ => (text_respelled form batch 0 batch 0).1
  have hvalues : ∀ v ∈ forms.map fun form =>
      (Value.ofDatum batch form.respelled : Value H),
      ReadsWithin v ∧ v.nesting < maxNesting := by
    intro v hv
    obtain ⟨form, hform, rfl⟩ := List.mem_map.mp hv
    exact hrereads form hform batch 0
  obtain ⟨again, hagain, hrecovers⟩ := read_lines_within hvalues page
  rw [htexts]
  refine ⟨again, hagain, (List.forall₂_map_left_iff.mp hrecovers).imp ?_⟩
  intro form other hsame next
  refine ⟨fun hfinite => ?_, hsame.identical next⟩
  rw [← Datum.respelled_of_isFinite hfinite]
  exact hsame.identical next

/-- A quoted pair with a float that is zero, and a float that is too large. -/
def sampleLedger : List Datum :=
  [.pair (.ref "quote" (some ⟨"page", 1, 1⟩))
      (.pair
        (.pair (.str "due\n") (.float (ofMagnitude true 0)) (some ⟨"page", 1, 2⟩))
        .nil none)
      (some ⟨"page", 1, 1⟩),
    .float (ofMagnitude true infinity)]

theorem read_sampleLedger :
    read "'(\"due\\n\" . -0.0)\n-1e999" "page" = .ok sampleLedger := by
  cbv

theorem sampleLedger_text_again :
    read "'(\"due\\n\" . -0.0)\n-1e999" "page" = .ok sampleLedger ∧
    ∃ again,
      read (String.intercalate "\n"
        (sampleLedger.map fun form => (Value.ofDatum 0 form : Value Empty).text))
          "copy" = .ok again ∧
      List.Forall₂
        (fun form other => ∀ next,
          (form.IsFinite →
            (Value.ofDatum 0 form : Value Empty).identical (.ofDatum next other) =
              true) ∧
          (Value.ofDatum 0 form.respelled : Value Empty).identical
            (.ofDatum next other) = true)
        sampleLedger again :=
  ⟨read_sampleLedger, read_text_again read_sampleLedger "copy" 0⟩

/-- Not every form comes back as it was: `1e400` is read as infinity, which is
written `inf`, and that is a name. -/
theorem infinity_read_as_name :
    ¬ ∀ (source file page : String) (forms : List Datum),
      read source file = .ok forms → ∃ again,
        read (String.intercalate "\n"
          (forms.map fun form => (Value.ofDatum 0 form : Value Empty).text)) page =
            .ok again ∧
        List.Forall₂
          (fun form other => ∀ next,
            (Value.ofDatum 0 form : Value Empty).identical (.ofDatum next other) =
              true)
          forms again := by
  intro hreread
  have hread : read "1e400" "page" = .ok [.float (ofMagnitude false infinity)] := by
    cbv
  obtain ⟨again, hagain, hsame⟩ := hreread "1e400" "page" "copy" _ hread
  have hname : read (String.intercalate "\n"
      ([Datum.float (ofMagnitude false infinity)].map fun form =>
        (Value.ofDatum 0 form : Value Empty).text)) "copy" =
      .ok [.ref "inf" (some ⟨"copy", 1, 1⟩)] := by
    cbv
  obtain rfl := Except.ok.inj (hname.symm.trans hagain)
  cases hsame with
  | cons hfirst _ =>
      have hdiffer : (Value.ofDatum 0 (.float (ofMagnitude false infinity)) :
          Value Empty).identical
            (.ofDatum 1 (.ref "inf" (some ⟨"copy", 1, 1⟩))) = false := by
        cbv
      rw [hfirst 1] at hdiffer
      cases hdiffer

end Lisp
