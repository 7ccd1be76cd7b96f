import Lisp.Proofs.Reading.Grammar

/-!
What a reader has recognised.  Between two tokens the tokens read so far split
into completed forms and, for every frame of the stack, the mark that opened it
and the forms it has collected.  This invariant holds along every run without a
fault, so a run that finishes has read a derivation of the grammar.
-/

namespace Lisp

/-- The tokens read before a form that may begin now, the completed forms,
newest first, and what encloses the new one. -/
inductive Enclosed : List Token → List Datum → List Frame → Prop where
  | top {pieces : List Piece}
      (hpieces : ∀ piece ∈ pieces, Spells 0 piece.1 piece.2) :
      Enclosed (pieces.flatMap Prod.fst) (pieces.map Prod.snd).reverse []
  | list {before : List Token} {forms : List Datum} {stack : List Frame}
      {pieces : List Piece} (opened : Location)
      (hbefore : Enclosed before forms stack)
      (hdepth : stack.length < maxNesting)
      (hpieces : ∀ piece ∈ pieces, Spells (stack.length + 1) piece.1 piece.2) :
      Enclosed (before ++ ⟨.opening, opened⟩ :: pieces.flatMap Prod.fst) forms
        (.list opened (pieces.map Prod.snd).reverse :: stack)
  | dotted {before : List Token} {forms : List Datum} {stack : List Frame}
      {pieces : List Piece} (opened point : Location)
      (hbefore : Enclosed before forms stack)
      (hdepth : stack.length < maxNesting)
      (hpieces : ∀ piece ∈ pieces, Spells (stack.length + 1) piece.1 piece.2)
      (hitems : pieces ≠ []) :
      Enclosed
        (before ++ ⟨.opening, opened⟩ ::
          (pieces.flatMap Prod.fst ++ [⟨.atom ".", point⟩]))
        forms (.dotted opened (pieces.map Prod.snd).reverse :: stack)
  | quote {before : List Token} {forms : List Datum} {stack : List Frame}
      (mark : Location) (hbefore : Enclosed before forms stack)
      (hdepth : stack.length < maxNesting) :
      Enclosed (before ++ [⟨.quote, mark⟩]) forms (.quote mark :: stack)

/-- A reader that has come through `tokens`. -/
inductive Reached : List Token → Reader → Prop where
  | between {before : List Token} {forms : List Datum} {stack : List Frame}
      (hbefore : Enclosed before forms stack) :
      Reached before ⟨forms, stack, none⟩
  | ending {before tokens : List Token} {forms : List Datum}
      {stack : List Frame}
      {opened : Location} {items : List Datum} {tail : Datum}
      (hbefore : Enclosed before forms (.dotted opened items :: stack))
      (htail : Spells (stack.length + 1) tokens tail) :
      Reached (before ++ tokens) ⟨forms, stack, some (opened, items, tail)⟩

theorem spells_snoc {depth : Nat} {pieces : List Piece} {tokens : List Token}
    {form : Datum} (hpieces : ∀ piece ∈ pieces, Spells depth piece.1 piece.2)
    (hform : Spells depth tokens form) :
    ∀ piece ∈ pieces ++ [(tokens, form)], Spells depth piece.1 piece.2 := by
  intro piece hmem
  rcases List.mem_append.1 hmem with hmem | hmem
  · exact hpieces piece hmem
  · obtain rfl := List.mem_singleton.1 hmem
    exact hform

theorem Enclosed.deliver {before tokens : List Token} {forms : List Datum}
    {stack : List Frame} {form : Datum} (hbefore : Enclosed before forms stack)
    (hform : Spells stack.length tokens form) :
    Reached (before ++ tokens) (Reader.deliver forms form stack) := by
  induction hbefore generalizing tokens form with
  | top hpieces =>
      have hnext := Enclosed.top (spells_snoc hpieces hform)
      simpa [Reader.deliver] using Reached.between hnext
  | list opened hbefore hdepth hpieces _ =>
      have hnext := Enclosed.list opened hbefore hdepth
        (spells_snoc hpieces hform)
      simpa [Reader.deliver] using Reached.between hnext
  | dotted opened point hbefore hdepth hpieces hitems _ =>
      exact .ending (.dotted opened point hbefore hdepth hpieces hitems) hform
  | quote mark hbefore hdepth ih =>
      -- the quoted form is complete in turn and goes to the frame below
      have hnext := ih (.quote mark hdepth hform)
      simpa [Reader.deliver, Datum.quoted] using hnext

theorem Enclosed.enter {before : List Token} {forms : List Datum}
    {stack : List Frame} {token : Token} {next : Reader}
    (hbefore : Enclosed before forms stack)
    (henter : Reader.enter ⟨forms, stack, none⟩ token = .ok next) :
    Reached (before ++ [token]) next := by
  obtain ⟨kind, place⟩ := token
  have hdepth : stack.length < maxNesting := by
    by_contra hdeep
    simp [Reader.enter, Nat.not_lt.1 hdeep] at henter
  simp only [Reader.enter, Nat.not_le.2 hdepth, if_false] at henter
  cases kind with
  | opening =>
      obtain rfl := Except.ok.inj henter
      exact .between (.list place hbefore hdepth (List.forall_mem_nil _))
  | closing => simp at henter
  | quote =>
      obtain rfl := Except.ok.inj henter
      exact .between (.quote place hbefore hdepth)
  | str body =>
      cases hbody : Quoted.decode body with
      | error cause => simp [hbody] at henter
      | ok s =>
          simp only [hbody, Except.ok.injEq] at henter
          exact henter ▸ hbefore.deliver (.str hdepth hbody)
  | atom text =>
      by_cases hpoint : text = "."
      · simp [hpoint] at henter
      · simp only [hpoint, if_false, Except.ok.injEq] at henter
        subst henter
        by_cases hliteral : IsLiteral text
        · exact hbefore.deliver (.literal hdepth hliteral)
        · rw [Datum.ofAtom_name hliteral]
          exact hbefore.deliver (.name hdepth hliteral hpoint)

/-- The point that ends the items of a list. -/
theorem Enclosed.point {before : List Token} {forms items : List Datum}
    {stack : List Frame} {opened place : Location}
    (hbefore : Enclosed before forms (.list opened items :: stack))
    (hitems : items ≠ []) :
    Enclosed (before ++ [⟨.atom ".", place⟩]) forms
      (.dotted opened items :: stack) := by
  cases hbefore with
  | list _ hbefore hdepth hpieces =>
      have hnext := Enclosed.dotted opened place hbefore hdepth hpieces
        (by simpa using hitems)
      simpa using hnext

/-- The parenthesis that closes a list without a tail. -/
theorem Enclosed.close_list {before : List Token} {forms items : List Datum}
    {stack : List Frame} {opened closed : Location}
    (hbefore : Enclosed before forms (.list opened items :: stack)) :
    Reached (before ++ [⟨.closing, closed⟩])
      (Reader.deliver forms (.list opened items.reverse .nil) stack) := by
  cases hbefore with
  | @list _ _ _ pieces _ hbefore hdepth hpieces =>
      rcases pieces with _ | ⟨first, rest⟩
      · have hnext := hbefore.deliver (.empty opened closed hdepth)
        simpa [Datum.list] using hnext
      · have hnext := hbefore.deliver (.list opened closed hdepth hpieces)
        simpa [Datum.list, Datum.chain] using hnext

/-- The parenthesis that closes a list after its tail. -/
theorem Enclosed.close_dotted {before tokens : List Token}
    {forms items : List Datum}
    {stack : List Frame} {opened closed : Location} {tail : Datum}
    (hbefore : Enclosed before forms (.dotted opened items :: stack))
    (htail : Spells (stack.length + 1) tokens tail) :
    Reached (before ++ tokens ++ [⟨.closing, closed⟩])
      (Reader.deliver forms (.list opened items.reverse tail) stack) := by
  cases hbefore with
  | dotted _ point hbefore hdepth hpieces hitems =>
      obtain ⟨first, rest, rfl⟩ := List.exists_cons_of_ne_nil hitems
      have hnext := hbefore.deliver
        (.dotted opened point closed hdepth hpieces htail)
      simpa [Datum.list, Datum.chain] using hnext

/-- One token keeps the account of what has been read. -/
theorem Reached.step {tokens : List Token} {reader next : Reader}
    {token : Token}
    (hreached : Reached tokens reader) (hstep : reader.step token = .ok next) :
    Reached (tokens ++ [token]) next := by
  obtain ⟨kind, place⟩ := token
  cases hreached with
  | ending hbefore htail =>
      by_cases hkind : kind = .closing
      · subst hkind
        obtain rfl := Except.ok.inj hstep
        exact hbefore.close_dotted htail
      · simp [Reader.step, hkind] at hstep
  | @between _ forms stack hbefore =>
      rcases stack with _ | ⟨frame, stack⟩
      · exact hbefore.enter hstep
      · cases frame with
        | quote mark => exact hbefore.enter hstep
        | dotted opened items =>
            by_cases hkind : kind = .closing
            · simp [Reader.step, hkind] at hstep
            · simp only [Reader.step, hkind, if_false] at hstep
              exact hbefore.enter hstep
        | list opened items =>
            by_cases hclosing : kind = .closing
            · subst hclosing
              obtain rfl := Except.ok.inj hstep
              exact hbefore.close_list
            · by_cases hpoint : kind = .atom "."
              · subst hpoint
                by_cases hitems : items = []
                · simp [Reader.step, hitems] at hstep
                · simp only [Reader.step, hitems, if_false] at hstep
                  obtain rfl := Except.ok.inj hstep
                  exact .between (hbefore.point hitems)
              · simp only [Reader.step, hclosing, hpoint, if_false] at hstep
                exact hbefore.enter hstep

theorem Reached.run {before tokens : List Token} {reader last : Reader}
    (hreached : Reached before reader)
    (hrun : tokens.foldlM Reader.step reader = .ok last) :
    Reached (before ++ tokens) last := by
  induction tokens generalizing before reader with
  | nil =>
      obtain rfl := Except.ok.inj hrun
      simpa using hreached
  | cons token tokens ih =>
      cases hstep : reader.step token with
      | error fault =>
          rw [List.foldlM_cons, hstep] at hrun
          cases hrun
      | ok next =>
          rw [foldlM_step_cons hstep] at hrun
          simpa using ih (hreached.step hstep) hrun

theorem Reached.finish {tokens : List Token} {reader : Reader}
    {forms : List Datum}
    (hreached : Reached tokens reader) (hfinish : reader.finish = .ok forms) :
    SpellsAll tokens forms := by
  cases hreached with
  | ending hbefore htail => cases hfinish
  | between hbefore =>
      cases hbefore with
      | @top pieces hpieces =>
          obtain rfl := Except.ok.inj hfinish
          exact ⟨pieces, hpieces, rfl, (List.reverse_reverse _).symm⟩
      | list opened hbefore hdepth hpieces => cases hfinish
      | dotted opened point hbefore hdepth hpieces hitems => cases hfinish
      | quote mark hbefore hdepth => cases hfinish

theorem Reached.of_start {tokens : List Token} {last : Reader}
    (hrun : tokens.foldlM Reader.step Reader.start = .ok last) :
    Reached tokens last := by
  have hstart : Reached [] Reader.start :=
    .between (.top (List.forall_mem_nil _))
  simpa using hstart.run hrun

theorem spellsAll_of_parse {tokens : List Token} {forms : List Datum}
    (hparse : parse tokens = .ok forms) : SpellsAll tokens forms := by
  rw [parse_eq_run, Reader.run] at hparse
  cases hrun : tokens.foldlM Reader.step Reader.start with
  | error fault =>
      rw [hrun] at hparse
      cases hparse
  | ok last =>
      rw [hrun] at hparse
      exact (Reached.of_start hrun).finish hparse

/-- How parsing fails: at a token that does not fit, or, when all tokens have
been read, at the end. -/
theorem parse_error_cases {tokens : List Token} {fault : Fault}
    (hfails : parse tokens = .error fault) :
    tokens.foldlM Reader.step Reader.start = .error fault ∨
    ∃ last, tokens.foldlM Reader.step Reader.start = .ok last ∧
      Reached tokens last ∧ last.finish = .error fault := by
  rw [parse_eq_run, Reader.run] at hfails
  cases hrun : tokens.foldlM Reader.step Reader.start with
  | error trouble =>
      rw [hrun] at hfails
      cases hfails
      exact .inl rfl
  | ok last =>
      rw [hrun] at hfails
      exact .inr ⟨last, rfl, .of_start hrun, hfails⟩

/-- Parsing accepts a list of tokens exactly if the grammar derives forms from
it, and gives the only forms it derives. -/
theorem parse_eq_ok_iff_spellsAll (tokens : List Token) :
    (∀ forms, parse tokens = .ok forms ↔ SpellsAll tokens forms) ∧
    ∀ forms others, SpellsAll tokens forms → SpellsAll tokens others →
      forms = others := by
  constructor
  · intro forms
    exact ⟨spellsAll_of_parse, SpellsAll.parse_eq⟩
  · intro forms others hforms hothers
    have hsame := hforms.parse_eq.symm.trans hothers.parse_eq
    exact Except.ok.inj hsame

end Lisp
