import Lisp.Proofs.Evaluation.Activation
import Lisp.Proofs.Places.Pieces
import Lisp.Proofs.Reading.RoundTrip

/-!
Sources of a single form.  A list of words in parentheses is read as the list of
what the words stand for; and as places do not influence evaluation, a source
comes to whatever its form comes to without them.  So a source that defines a
procedure leaves a session that has the procedure.
-/

namespace Lisp

/-- Whether a text, in any file, is a source of this form and nothing else, but
for places. -/
def Datum.WrittenAs (form : Datum) (text : String) : Prop :=
  ∀ file, ∃ written, read text file = .ok [written] ∧
    written.bare = form.bare

theorem Datum.writtenAs_of_read {form : Datum} {text : String}
    (hreads : ∀ file, (read text file).map (List.map Datum.bare) =
      .ok [form.bare]) : form.WrittenAs text := by
  intro file
  specialize hreads file
  cases hends : read text file with
  | error fault =>
      rw [hends] at hreads
      cases hreads
  | ok forms =>
      rw [hends] at hreads
      have hbare : forms.map Datum.bare = [form.bare] := Except.ok.inj hreads
      obtain ⟨written, rfl, hsame⟩ := List.map_eq_singleton_iff.mp hbare
      exact ⟨written, rfl, hsame⟩

section Words

/-- The atoms that can stand alone: all but the point. -/
structure IsWord (word : String) : Prop where
  nonempty : word ≠ ""
  atomChars : ∀ c ∈ word.toList, isAtomChar c = true
  not_point : word ≠ "."

theorem Datum.bare_chain (items : List Datum) (tail : Datum) :
    (Datum.chain items tail).bare =
      Datum.chain (items.map Datum.bare) tail.bare := by
  induction items with
  | nil => rfl
  | cons item items ih => exact congrArg (Datum.pair item.bare · none) ih

/-- But for its place, an atom stands for the same everywhere. -/
theorem Datum.bare_ofAtom (word : String) (place other : Location) :
    (Datum.ofAtom word place).bare = (Datum.ofAtom word other).bare := by
  have hmoved : (Datum.ofAtom word other).moved (fun _ => place) =
      .ofAtom word place := Datum.moved_ofAtom word other
  rw [← hmoved, Datum.bare_moved]

/-- What a word stands for. -/
def Datum.ofWord (word : String) : Datum :=
  .ofAtom word (.start "")

theorem Spells.word {word : String} (hword : IsWord word) {depth : Nat}
    (hroom : depth < maxNesting) (place : Location) :
    Spells depth [⟨.atom word, place⟩] (.ofAtom word place) := by
  by_cases hliteral : IsLiteral word
  · exact .literal hroom hliteral
  · rw [Datum.ofAtom_name hliteral]
    exact .name hroom hliteral hword.not_point

theorem IsWord.written {word : String} (hword : IsWord word) :
    (TokenKind.atom word).Written word.toList := by
  have hsome : word.toList ≠ [] := by simpa using hword.nonempty
  have hwritten := TokenKind.Written.atom hsome
    fun c hmem => (isAtomChar_iff c).mp (hword.atomChars c hmem)
  rwa [String.ofList_toList] at hwritten

/-- The words of a list that follow the first, and the end of the list. -/
theorem exists_lexes_words {words : List String}
    (hword : ∀ word ∈ words, IsWord word) (file : String)
    (before : List Char) (afterAtom : Bool) :
    ∃ (pieces : List Piece) (closed : Location),
      Lexes file before afterAtom
        (words.flatMap (fun word => ' ' :: word.toList) ++ [')'])
        (pieces.flatMap Prod.fst ++ [⟨.closing, closed⟩]) ∧
      (∀ piece ∈ pieces, Spells 1 piece.1 piece.2) ∧
      (pieces.map Prod.snd).map Datum.bare =
        (words.map Datum.ofWord).map Datum.bare := by
  induction words generalizing before afterAtom with
  | nil =>
      have hends : Lexes file (before ++ [] ++ [')']) false [] [] :=
        .done .nothing
      exact ⟨[], _, .token .nothing .closing (by simp [TokenKind.isAtom]) hends,
        by simp, rfl⟩
  | cons word words ih =>
      obtain ⟨hfirst, hrest⟩ := List.forall_mem_cons.mp hword
      obtain ⟨pieces, closed, hlexes, hspells, hsame⟩ :=
        ih hrest (before ++ [' '] ++ word.toList) true
      let place : Location := .following file (before ++ [' '])
      refine ⟨([⟨.atom word, place⟩], .ofAtom word place) :: pieces, closed,
        ?_, ?_, ?_⟩
      · have hapart : afterAtom = true → (TokenKind.atom word).isAtom = true →
            [' '] ≠ [] := by simp
        have hlexed := Lexes.token (.blank rfl .nothing) hfirst.written hapart hlexes
        simpa [place] using hlexed
      · exact List.forall_mem_cons.mpr ⟨.word hfirst (by decide) place, hspells⟩
      · simp only [List.map_cons, hsame]
        rw [Datum.bare_ofAtom word place (.start ""), Datum.ofWord]

/-- Words in parentheses, a blank between them, are a list. -/
theorem Datum.writtenAs_words {first : String} {words : List String}
    {text : String} (hfirst : IsWord first)
    (hword : ∀ word ∈ words, IsWord word)
    (hwritten : text.toList = '(' :: (first.toList ++
      (words.flatMap (fun word => ' ' :: word.toList) ++ [')']))) :
    (Datum.chain ((first :: words).map Datum.ofWord) .nil).WrittenAs text := by
  intro file
  obtain ⟨pieces, closed, hlexes, hspells, hsame⟩ :=
    exists_lexes_words hword file (['('] ++ [] ++ first.toList) true
  let opened : Location := .following file []
  let place : Location := .following file ['(']
  have hatom : Lexes file ['('] false
      (first.toList ++ (words.flatMap (fun word => ' ' :: word.toList) ++ [')']))
      (⟨.atom first, place⟩ ::
        (pieces.flatMap Prod.fst ++ [⟨.closing, closed⟩])) :=
    .token .nothing hfirst.written nofun hlexes
  have hlexed : Lexes file [] false text.toList
      (⟨.opening, opened⟩ :: ⟨.atom first, place⟩ ::
        (pieces.flatMap Prod.fst ++ [⟨.closing, closed⟩])) := by
    rw [hwritten]
    exact .token .nothing .opening nofun hatom
  let items : List Piece :=
    ([⟨.atom first, place⟩], .ofAtom first place) :: pieces
  have hspelled : ∀ piece ∈ items, Spells 1 piece.1 piece.2 :=
    List.forall_mem_cons.mpr ⟨.word hfirst (by decide) place, hspells⟩
  have hlist := SpellsAll.nil.cons (Spells.list opened closed (by decide) hspelled)
  rw [List.append_nil] at hlist
  refine ⟨_, hlexed.read_eq hlist, ?_⟩
  rw [List.map_cons, Datum.bare_chain, List.map_cons, ← hsame, Datum.ofWord,
    Datum.bare_ofAtom first (.start "") place]
  exact congrArg (Datum.pair _ · none) (Datum.bare_chain _ _)

theorem isWord_number (n : Nat) : IsWord (toString n) := by
  have hsame : toString n = toString (n : Int) := rfl
  rw [hsame]
  exact ⟨toString_int_ne rfl n, fun _ hmem => isAtomChar_of_mem_toString hmem,
    toString_int_ne rfl n⟩

theorem Datum.ofWord_number {n : Nat} (hfits : fitsWord n = true) :
    Datum.ofWord (toString n) = .int (Int64.ofInt n) := by
  have hread := Datum.ofAtom_toString n (.start "")
  rw [if_pos hfits] at hread
  exact hread

/-- A call of a name on natural numbers, as it is written. -/
theorem Datum.writtenAs_numberCall {name text : String} (hname : IsName name)
    {numbers : List Nat} (hfits : ∀ n ∈ numbers, fitsWord n = true)
    (hwritten : text.toList = '(' :: (name.toList ++
      (numbers.flatMap (fun n => ' ' :: (toString n).toList) ++ [')']))) :
    (Datum.numberCall name numbers).WrittenAs text := by
  have hfirst : IsWord name :=
    ⟨hname.nonempty, hname.atomChars, hname.not_point⟩
  have hword : ∀ word ∈ numbers.map toString, IsWord word := by
    intro word hmem
    obtain ⟨n, -, rfl⟩ := List.mem_map.mp hmem
    exact isWord_number n
  have hcalled : Datum.ofWord name = .ref name (some (.start "")) :=
    Datum.ofAtom_name hname.not_literal _
  have hgiven : (numbers.map toString).map Datum.ofWord =
      numbers.map fun n : Nat => Datum.int (Int64.ofInt n) := by
    rw [List.map_map]
    apply List.map_congr_left
    intro n hmem
    exact Datum.ofWord_number (hfits n hmem)
  have hwords := Datum.writtenAs_words hfirst hword
    (by rw [hwritten, List.flatMap_map])
  rw [List.map_cons, hcalled, hgiven] at hwords
  intro file
  obtain ⟨form, hreads, hsame⟩ := hwords file
  exact ⟨form, hreads, hsame⟩

end Words

section Plain

variable {H : Type} {v w : Value H} {reply : Answer H}

theorem Value.eq_of_bare (hplain : w.isPlain = true) (hsame : w.bare = v.bare) :
    v = w := by
  cases w with
  | nil | bool | int | big | float | str =>
      cases v <;> cases hsame
      rfl
  | _ => cases hplain

/-- A plain value has no places in it. -/
theorem Alike.eq_ok (halike : Alike (.ok w) reply) (hplain : w.isPlain = true) :
    reply = .ok w := by
  cases reply with
  | ok v => exact congrArg Except.ok (Value.eq_of_bare hplain halike)
  | error fault => cases halike

theorem Alike.kind {fault : Fault} (halike : Alike (.error fault) reply) :
    ∃ other, reply = .error other ∧ fault.kind = other.kind := by
  cases reply with
  | ok v => cases halike
  | error other => exact ⟨other, rfl, halike.1⟩

theorem Value.isPlain_ofResult (mayNarrow : Bool) (r : Int) :
    (Value.ofResult mayNarrow r : Value H).isPlain = true := by
  unfold ofResult
  split
  · rfl
  · rfl

end Plain

/-- Evaluating a source ends with an answer and leaves a session behind, given
steps enough. -/
def SourceEvaluates (text file : String) (s : Session Empty)
    (answer : Answer Empty) (t : Session Empty) : Prop :=
  ∃ steps, evaluateSource steps text file s = .ofAnswer answer t

/-- A source of one form comes to what the form comes to without places, in a
session that differs only in places. -/
theorem Datum.WrittenAs.evaluates {form : Datum} {text : String}
    (hwritten : form.WrittenAs text) (file : String) {s u t : Session Empty}
    {answer : Answer Empty} (hsameSession : s.bare = u.bare)
    (hends : Evaluates (.ofDatum u.batches form) u.root
      { u with batches := u.batches + 1 } answer t) :
    ∃ reply v, SourceEvaluates text file s reply v ∧ Alike answer reply ∧
      v.bare = t.bare := by
  obtain ⟨other, hreads, hsameForm⟩ := hwritten file
  obtain ⟨steps, hends⟩ := hends
  have hsingle : (evaluateForms steps u.root [form] : Eval Empty _) =
      evaluateForm steps u.root form := by
    simp [evaluateForms]
  have hthere : evaluateForms steps u.root [form] u = .ofAnswer answer t := by
    rw [hsingle]
    exact hends
  have hsameRoot : s.bare.root = u.bare.root :=
    congrArg Session.root hsameSession
  have hsame : (evaluateSource steps text file s).bare Value.bare =
      (Outcome.ofAnswer answer t).bare Value.bare := by
    rw [evaluateSource_of_read steps hreads, ← hthere, ← Blind.evaluateForms,
      ← Blind.evaluateForms, hsameSession, List.map_singleton,
      List.map_singleton, hsameForm]
    exact congrArg (evaluateForms steps · [form.bare] u.bare) hsameRoot
  obtain ⟨reply, v, hends, halike, hrest⟩ := Outcome.exists_alike hsame
  exact ⟨reply, v, ⟨steps, hends⟩, halike, hrest⟩

theorem Builtin.name_ne_of_find? {name : String}
    (hnew : Builtin.find? name = none) (op : Builtin) : op.name ≠ name := by
  intro hsame
  have hdiffer := List.find?_eq_none.mp hnew op op.mem_all
  exact hdiffer (beq_iff_eq.mpr hsame)

/-- A source that defines a procedure, given to a fresh session: but for places,
the session left has the procedure in its root scope. -/
theorem Datum.WrittenAs.equips {name text : String} {names : List String}
    {body : Datum} (hwritten : (Datum.definition name names body).WrittenAs text)
    (hdistinct : names.Nodup)
    (hnew : Builtin.find? name = none) {limit : Nat} (hroom : 3 ≤ limit)
    (sink : Sink) (recording : Bool) (file : String) :
    ∃ s, SourceEvaluates text file (.fresh limit sink recording) (.ok .nil) s ∧
      ∃ (id : ObjectId) (inner : Value Empty) (t : Session Empty),
        s.bare = t.bare ∧ t.depth = 0 ∧ t.limit = limit ∧
        inner.CopyOf body ∧
        t.forest.Equipped t.root name (.closure id names inner t.root) := by
  let fresh : Session Empty := .fresh limit sink recording
  let start : Session Empty := { fresh with batches := fresh.batches + 1 }
  have hstocked : start.forest.Stocked start.root :=
    Session.fresh_stocked limit sink recording
  have hroomStart : start.depth + 3 ≤ start.limit := by
    have houtermost : start.depth = 0 := rfl
    rw [houtermost, Nat.zero_add]
    exact hroom
  have hcopy := Value.copyOf_ofDatum (H := Empty) fresh.batches
    (.definition name names body)
  obtain ⟨inner, t, hcopied, hderived, hequipped⟩ := BigStep.equips hstocked
    hroomStart hdistinct (Builtin.name_ne_of_find? hnew) hcopy
  obtain ⟨reply, s, hends, halike, hsame⟩ :=
    hwritten.evaluates file (u := fresh) rfl (.of_bigStep hderived)
  rw [halike.eq_ok rfl] at hends
  exact ⟨s, hends, _, inner, t, hsame, hderived.depth_eq,
    hderived.changes.limit_eq, hcopied, hequipped⟩

end Lisp
