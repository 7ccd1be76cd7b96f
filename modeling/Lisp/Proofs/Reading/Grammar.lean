import Lisp.Proofs.Reading.Stack

/-!
The grammar of forms.  A list of tokens spells a form by the productions
`atom`, `"text"`, `'form`, `(form ...)` and `(form form ... . form)`, each at
fewer than `maxNesting` enclosing lists and quotes.  The main statement says
that parsing accepts exactly what this grammar derives.
-/

namespace Lisp

/-- The atoms that stand for something other than a name. -/
def IsLiteral (text : String) : Prop :=
  text = "#t" ∨ text = "#f" ∨ (integer? text.toList).isSome ∨
    (float? text.toList).isSome

instance (text : String) : Decidable (IsLiteral text) :=
  inferInstanceAs (Decidable (_ ∨ _ ∨ _ ∨ _))

theorem Datum.ofAtom_name {text : String} (hname : ¬IsLiteral text)
    (place : Location) : Datum.ofAtom text place = .ref text (some place) := by
  simp only [IsLiteral, not_or, Option.not_isSome_iff_eq_none] at hname
  obtain ⟨htrue, hfalse, hinteger, hfloat⟩ := hname
  simp [Datum.ofAtom, htrue, hfalse, hinteger, hfloat]

theorem not_isLiteral_point : ¬IsLiteral "." := by
  decide

/-- A run of tokens and the form it spells. -/
abbrev Piece : Type :=
  List Token × Datum

/-- The tokens of a form inside `depth` lists and quotes, and its value.  Of
the cells of a list only the first has a place, that of the parenthesis. -/
inductive Spells : Nat → List Token → Datum → Prop where
  | literal {depth : Nat} {text : String} {place : Location}
      (hdepth : depth < maxNesting) (hliteral : IsLiteral text) :
      Spells depth [⟨.atom text, place⟩] (.ofAtom text place)
  | name {depth : Nat} {text : String} {place : Location}
      (hdepth : depth < maxNesting) (hname : ¬IsLiteral text)
      (hpoint : text ≠ ".") :
      Spells depth [⟨.atom text, place⟩] (.ref text (some place))
  | str {depth : Nat} {body s : String} {place : Location}
      (hdepth : depth < maxNesting) (hbody : Quoted.decode body = .ok s) :
      Spells depth [⟨.str body, place⟩] (.str s)
  | quote {depth : Nat} {tokens : List Token} {form : Datum} (mark : Location)
      (hdepth : depth < maxNesting) (hform : Spells (depth + 1) tokens form) :
      Spells depth (⟨.quote, mark⟩ :: tokens)
        (.pair (.ref "quote" (some mark)) (.pair form .nil none) (some mark))
  | empty {depth : Nat} (opened closed : Location)
      (hdepth : depth < maxNesting) :
      Spells depth [⟨.opening, opened⟩, ⟨.closing, closed⟩] .nil
  | list {depth : Nat} {first : Piece} {rest : List Piece}
      (opened closed : Location) (hdepth : depth < maxNesting)
      (hitems : ∀ piece ∈ first :: rest, Spells (depth + 1) piece.1 piece.2) :
      Spells depth
        (⟨.opening, opened⟩ ::
          ((first :: rest).flatMap Prod.fst ++ [⟨.closing, closed⟩]))
        (.pair first.2
          ((rest.map Prod.snd).foldr (fun item tail => .pair item tail none)
            .nil)
          (some opened))
  | dotted {depth : Nat} {first : Piece} {rest : List Piece}
      {tokens : List Token} {tail : Datum} (opened point closed : Location)
      (hdepth : depth < maxNesting)
      (hitems : ∀ piece ∈ first :: rest, Spells (depth + 1) piece.1 piece.2)
      (htail : Spells (depth + 1) tokens tail) :
      Spells depth
        (⟨.opening, opened⟩ :: ((first :: rest).flatMap Prod.fst ++
          ⟨.atom ".", point⟩ :: (tokens ++ [⟨.closing, closed⟩])))
        (.pair first.2
          ((rest.map Prod.snd).foldr (fun item tail => .pair item tail none)
            tail)
          (some opened))

/-- The tokens of a source, form after form, and the values of its forms. -/
def SpellsAll (tokens : List Token) (forms : List Datum) : Prop :=
  ∃ pieces : List Piece, (∀ piece ∈ pieces, Spells 0 piece.1 piece.2) ∧
    pieces.flatMap Prod.fst = tokens ∧ pieces.map Prod.snd = forms

theorem Reader.step_opening {forms : List Datum} {stack : List Frame}
    {opened : Location} (hdepth : stack.length < maxNesting) :
    Reader.step ⟨forms, stack, none⟩ ⟨.opening, opened⟩ =
      .ok ⟨forms, .list opened [] :: stack, none⟩ := by
  rw [Reader.step_enter rfl (by simp) (by simp)]
  simp [Reader.enter, hdepth]

theorem Reader.step_quote {forms : List Datum} {stack : List Frame}
    {mark : Location} (hdepth : stack.length < maxNesting) :
    Reader.step ⟨forms, stack, none⟩ ⟨.quote, mark⟩ =
      .ok ⟨forms, .quote mark :: stack, none⟩ := by
  rw [Reader.step_enter rfl (by simp) (by simp)]
  simp [Reader.enter, hdepth]

theorem foldlM_step_append {reader next : Reader} {before : List Token}
    (hbefore : before.foldlM Reader.step reader = .ok next)
    (after : List Token) :
    (before ++ after).foldlM Reader.step reader =
      after.foldlM Reader.step next := by
  rw [List.foldlM_append, hbefore]
  rfl

/-- Tokens that cannot all be read stop at one of them. -/
theorem foldlM_step_stops {reader : Reader} {tokens : List Token}
    {fault : Fault}
    (hfails : tokens.foldlM Reader.step reader = .error fault) :
    ∃ token ∈ tokens, ∃ next : Reader, next.step token = .error fault := by
  induction tokens generalizing reader with
  | nil => cases hfails
  | cons token tokens ih =>
      cases hstep : reader.step token with
      | error trouble =>
          rw [List.foldlM_cons, hstep] at hfails
          cases hfails
          exact ⟨token, List.mem_cons_self, reader, hstep⟩
      | ok next =>
          rw [foldlM_step_cons hstep] at hfails
          obtain ⟨other, hmem, hstops⟩ := ih hfails
          exact ⟨other, List.mem_cons_of_mem token hmem, hstops⟩

theorem parse_append_run {next : Reader} {before : List Token}
    (hbefore : before.foldlM Reader.step Reader.start = .ok next)
    (after : List Token) : parse (before ++ after) = next.run after := by
  rw [parse_eq_run, Reader.run, foldlM_step_append hbefore, Reader.run]

/-- Reading `tokens` where a form may begin delivers `form`. -/
def Delivers (depth : Nat) (tokens : List Token) (form : Datum) : Prop :=
  ∀ (forms : List Datum) (stack : List Frame), stack.length = depth →
    tokens.foldlM Reader.step ⟨forms, stack, none⟩ =
      .ok (Reader.deliver forms form stack)

theorem foldlM_items {depth : Nat} {pieces : List Piece}
    (hpieces : ∀ piece ∈ pieces, Delivers (depth + 1) piece.1 piece.2)
    (forms items : List Datum) (opened : Location) {stack : List Frame}
    (hstack : stack.length = depth) :
    (pieces.flatMap Prod.fst).foldlM Reader.step
        ⟨forms, .list opened items :: stack, none⟩ =
      .ok ⟨forms,
        .list opened ((pieces.map Prod.snd).reverse ++ items) :: stack,
        none⟩ := by
  induction pieces generalizing items with
  | nil => rfl
  | cons piece pieces ih =>
      have hpiece := hpieces piece List.mem_cons_self forms
        (.list opened items :: stack) (by simp [hstack])
      have hrest := ih (fun other hother =>
        hpieces other (List.mem_cons_of_mem piece hother)) (piece.2 :: items)
      rw [List.flatMap_cons, foldlM_step_append hpiece]
      simpa [Reader.deliver] using hrest

theorem Spells.delivers {depth : Nat} {tokens : List Token} {form : Datum}
    (hform : Spells depth tokens form) : Delivers depth tokens form := by
  induction hform with
  | literal hdepth hliteral =>
      intro forms stack hstack
      have hpoint : _ ≠ "." := fun h => not_isLiteral_point (h ▸ hliteral)
      simp [Reader.step_enter, Reader.enter, hstack, hdepth, hpoint]
  | name hdepth hname hpoint =>
      intro forms stack hstack
      simp [Reader.step_enter, Reader.enter, hstack, hdepth, hpoint,
        Datum.ofAtom_name hname]
  | str hdepth hbody =>
      intro forms stack hstack
      simp [Reader.step_enter, Reader.enter, hstack, hdepth, hbody]
  | quote mark hdepth _ ih =>
      intro forms stack hstack
      rw [foldlM_step_cons (Reader.step_quote (hstack ▸ hdepth)),
        ih forms _ (by simp [hstack])]
      rfl
  | empty opened closed hdepth =>
      intro forms stack hstack
      rw [foldlM_step_cons (Reader.step_opening (hstack ▸ hdepth))]
      rfl
  | list opened closed hdepth _ ih =>
      intro forms stack hstack
      have hitems := foldlM_items ih forms [] opened hstack
      rw [foldlM_step_cons (Reader.step_opening (hstack ▸ hdepth)),
        foldlM_step_append hitems]
      simp [Reader.step, Datum.list, Datum.chain]
  | @dotted _ first rest _ _ opened point closed hdepth _ _ ih ihtail =>
      intro forms stack hstack
      have hitems := foldlM_items ih forms [] opened hstack
      have hpoint : Reader.step
          ⟨forms,
            .list opened (((first :: rest).map Prod.snd).reverse ++ []) :: stack,
            none⟩ ⟨.atom ".", point⟩ =
          .ok ⟨forms,
            .dotted opened ((first :: rest).map Prod.snd).reverse :: stack,
            none⟩ := by
        simp [Reader.step]
      have htail := ihtail forms
        (.dotted opened ((first :: rest).map Prod.snd).reverse :: stack)
        (by simp [hstack])
      rw [foldlM_step_cons (Reader.step_opening (hstack ▸ hdepth)),
        foldlM_step_append hitems, foldlM_step_cons hpoint,
        foldlM_step_append htail]
      simp [Reader.step, Reader.deliver, Datum.list, Datum.chain]

theorem foldlM_forms {pieces : List Piece}
    (hpieces : ∀ piece ∈ pieces, Spells 0 piece.1 piece.2) (done : List Datum) :
    (pieces.flatMap Prod.fst).foldlM Reader.step ⟨done, [], none⟩ =
      .ok ⟨(pieces.map Prod.snd).reverse ++ done, [], none⟩ := by
  induction pieces generalizing done with
  | nil => rfl
  | cons piece pieces ih =>
      have hpiece := (hpieces piece List.mem_cons_self).delivers done [] rfl
      have hrest := ih (fun other hother =>
        hpieces other (List.mem_cons_of_mem piece hother)) (piece.2 :: done)
      rw [List.flatMap_cons, foldlM_step_append hpiece]
      simpa [Reader.deliver] using hrest

theorem SpellsAll.parse_eq {tokens : List Token} {forms : List Datum}
    (hforms : SpellsAll tokens forms) : parse tokens = .ok forms := by
  obtain ⟨pieces, hpieces, rfl, rfl⟩ := hforms
  rw [parse_eq_run, Reader.run, Reader.start, foldlM_forms hpieces []]
  simp [bind, Except.bind, Reader.finish]

end Lisp
