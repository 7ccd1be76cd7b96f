import Lisp.Datum.Reader
import Lisp.Proofs.Reading.Literal
import Mathlib.Data.List.Basic

/-!
Reading with a stack.  A reader that takes one token at a time keeps what encloses
the next form on a stack, where the reader of forms recurses.  The two read alike:
where the one ends with a form, the other has delivered it to what encloses it, and
where the one fails, so does the other.  The reader of forms is never asked for a
form when no token is left.
-/

namespace Lisp

/-- What encloses the form being read; items stand newest first. -/
inductive Frame where
  | list (opened : Location) (items : List Datum)
  /-- A list whose dot has been read, but not its tail. -/
  | dotted (opened : Location) (items : List Datum)
  | quote (mark : Location)

/-- The state of a reader between two tokens. -/
structure Reader where
  /-- The completed forms, newest first. -/
  forms : List Datum
  /-- What encloses the next form, innermost first. -/
  stack : List Frame
  /-- A list that is complete but for its closing parenthesis: its place, its
  items, newest first, and its tail. -/
  ending : Option (Location × List Datum × Datum)

/-- A reader that has read nothing. -/
def Reader.start : Reader :=
  ⟨[], [], none⟩

/-- Hand a completed form to what encloses it. -/
def Reader.deliver (forms : List Datum) (form : Datum) : List Frame → Reader
  | [] => ⟨form :: forms, [], none⟩
  | .list opened items :: stack => ⟨forms, .list opened (form :: items) :: stack, none⟩
  | .dotted opened items :: stack => ⟨forms, stack, some (opened, items, form)⟩
  | .quote mark :: stack => Reader.deliver forms (.quoted mark form) stack

/-- Read a token that begins a form. -/
def Reader.enter (reader : Reader) (token : Token) : Except Fault Reader :=
  if maxNesting ≤ reader.stack.length then
    .error { cause := .nestingTooDeep maxNesting, place := some token.place }
  else
    match token.kind with
    | .opening => .ok { reader with stack := .list token.place [] :: reader.stack }
    | .closing => .error { cause := .strayClose, place := some token.place }
    | .quote => .ok { reader with stack := .quote token.place :: reader.stack }
    | .str body =>
        match Quoted.decode body with
        | .ok s => .ok (Reader.deliver reader.forms (.str s) reader.stack)
        | .error cause => .error { cause := cause, place := some token.place }
    | .atom text =>
        if text = "." then
          .error { cause := .strayDot, place := some token.place }
        else
          .ok (Reader.deliver reader.forms (.ofAtom text token.place) reader.stack)

/-- Read one token. -/
def Reader.step (reader : Reader) (token : Token) : Except Fault Reader :=
  match reader.ending with
  | some (opened, items, tail) =>
      if token.kind = .closing then
        .ok (Reader.deliver reader.forms (.list opened items.reverse tail)
          reader.stack)
      else
        .error { cause := .elementAfterTail, place := some token.place }
  | none =>
      match reader.stack with
      | .list opened items :: stack =>
          if token.kind = .closing then
            .ok (Reader.deliver reader.forms (.list opened items.reverse .nil)
              stack)
          else if token.kind = .atom "." then
            if items = [] then
              .error { cause := .dotBeforeElement, place := some token.place }
            else
              .ok { reader with stack := .dotted opened items :: stack }
          else
            reader.enter token
      | .dotted _ _ :: _ =>
          if token.kind = .closing then
            .error { cause := .dotWithoutTail, place := some token.place }
          else
            reader.enter token
      | _ => reader.enter token

/-- The forms of a source that ends here. -/
def Reader.finish (reader : Reader) : Except Fault (List Datum) :=
  match reader.ending, reader.stack with
  | some (opened, _, _), _ =>
      .error { cause := .unclosedList, place := some opened }
  | none, [] => .ok reader.forms.reverse
  | none, .list opened _ :: _ | none, .dotted opened _ :: _ =>
      .error { cause := .unclosedList, place := some opened }
  | none, .quote mark :: _ =>
      .error { cause := .nothingToQuote, place := some mark }

theorem foldlM_step_cons {reader next : Reader} {token : Token}
    (hstep : reader.step token = .ok next) (tokens : List Token) :
    (token :: tokens).foldlM Reader.step reader =
      tokens.foldlM Reader.step next := by
  rw [List.foldlM_cons, hstep]
  rfl

/-- The forms of a source that goes on with the given tokens. -/
def Reader.run (reader : Reader) (tokens : List Token) :
    Except Fault (List Datum) := do
  (← tokens.foldlM Reader.step reader).finish

theorem Reader.run_cons {reader next : Reader} {token : Token}
    (hstep : reader.step token = .ok next) (tokens : List Token) :
    reader.run (token :: tokens) = next.run tokens := by
  rw [run, foldlM_step_cons hstep, run]

theorem Reader.run_cons_error {reader : Reader} {token : Token} {fault : Fault}
    (hstep : reader.step token = .error fault) (tokens : List Token) :
    reader.run (token :: tokens) = .error fault := by
  rw [run, List.foldlM_cons, hstep]
  rfl

/-- Whether reading a form comes to what a reader with a stack makes of the tokens:
it goes on from the form as `deliver` says, or fails in the same way.  A list is
missing its parenthesis only when no token is left. -/
def Reading.Agrees {bound : Nat} (reading : Reading bound) (reader : Reader)
    (tokens : List Token) (deliver : Datum → Reader) : Prop :=
  match reading with
  | .done form rest _ => reader.run tokens = (deliver form).run rest
  | .failed fault rest =>
      reader.run tokens = .error fault ∧
        (fault.kind = .unclosedParenthesis → rest = [])

section Agreement

variable {bound : Nat} {reading : Reading bound} {reader next : Reader}
  {token : Token} {tokens : List Token} {deliver : Datum → Reader}

theorem Reading.Agrees.of_run {later : List Token}
    (hsame : reader.run tokens = next.run later)
    (hagrees : reading.Agrees next later deliver) :
    reading.Agrees reader tokens deliver := by
  cases reading with
  | done form rest hshorter => exact hsame.trans hagrees
  | failed fault rest => exact ⟨hsame.trans hagrees.1, hagrees.2⟩

theorem Reading.Agrees.step (hstep : reader.step token = .ok next)
    (hagrees : reading.Agrees next tokens deliver) :
    reading.Agrees reader (token :: tokens) deliver :=
  hagrees.of_run (Reader.run_cons hstep tokens)

theorem Reading.agrees_failed {fault : Fault}
    (hstep : reader.step token = .error fault)
    (hkind : fault.kind ≠ .unclosedParenthesis) (rest : List Token) :
    (Reading.failed fault rest : Reading bound).Agrees reader (token :: tokens)
      deliver :=
  ⟨Reader.run_cons_error hstep tokens, fun hunclosed => absurd hunclosed hkind⟩

end Agreement

/-- Where no tail awaits its parenthesis, a token that neither closes a list nor
divides one begins a form. -/
theorem Reader.step_enter {reader : Reader} {token : Token}
    (hending : reader.ending = none) (hclosing : token.kind ≠ .closing)
    (hpoint : token.kind ≠ .atom ".") :
    reader.step token = reader.enter token := by
  rcases reader with ⟨forms, stack, ending⟩
  obtain rfl : ending = none := hending
  rcases stack with _ | ⟨frame, stack⟩
  · rfl
  · cases frame with
    | list opened items => simp [Reader.step, hclosing, hpoint]
    | dotted opened items => simp [Reader.step, hclosing]
    | quote mark => rfl

mutual

/-- Wherever a token begins a form, the form that is read from there on is the one
that is delivered. -/
theorem readForm_agrees (depth : Nat) (token : Token) (rest : List Token)
    (forms : List Datum) (stack : List Frame) (hdepth : stack.length = depth)
    (hbegins : Reader.step ⟨forms, stack, none⟩ token =
      Reader.enter ⟨forms, stack, none⟩ token) :
    (readForm depth (token :: rest)).Agrees ⟨forms, stack, none⟩
      (token :: rest) (Reader.deliver forms · stack) := by
  subst hdepth
  obtain ⟨kind, place⟩ := token
  rw [readForm]
  by_cases hdeep : maxNesting ≤ stack.length
  · rw [if_pos hdeep]
    rw [Reader.enter, if_pos hdeep] at hbegins
    exact Reading.agrees_failed hbegins nofun rest
  · rw [if_neg hdeep]
    rw [Reader.enter, if_neg hdeep] at hbegins
    cases kind with
    | opening =>
        exact (readList_agrees stack.length place [] _ rest _ forms stack
          rfl).step hbegins
    | closing => exact Reading.agrees_failed hbegins nofun rest
    | quote =>
        cases rest with
        | nil =>
            exact ⟨Reader.run_cons hbegins [], fun _ => rfl⟩
        | cons next rest =>
            have hquoted := readForm_agrees (stack.length + 1) next rest forms
              (.quote place :: stack) rfl rfl
            simp only [List.isEmpty_cons, Bool.false_eq_true, if_false]
            cases hread : readForm (stack.length + 1) (next :: rest) with
            | done form left hshorter =>
                rw [hread] at hquoted
                exact (Reader.run_cons hbegins _).trans hquoted
            | failed fault left =>
                rw [hread] at hquoted
                exact ⟨(Reader.run_cons hbegins _).trans hquoted.1, hquoted.2⟩
    | str body =>
        dsimp only at hbegins ⊢
        cases hdecoded : Quoted.decode body with
        | ok s =>
            rw [hdecoded] at hbegins
            exact Reader.run_cons hbegins rest
        | error cause =>
            rw [hdecoded] at hbegins
            refine Reading.agrees_failed hbegins ?_ rest
            have hescape := Quoted.decodeFrom_fault hdecoded
            simp [Fault.kind, hescape]
    | atom text =>
        by_cases hpoint : text = "."
        · subst hpoint
          exact Reading.agrees_failed hbegins nofun rest
        · simp only [hpoint, if_false] at hbegins ⊢
          exact Reader.run_cons hbegins rest
termination_by 2 * (rest.length + 1)

/-- The rest of a list, after the items so far. -/
theorem readList_agrees (depth : Nat) (opened : Location) (items : List Datum)
    (bound : Nat) (tokens : List Token) (hwithin : tokens.length ≤ bound)
    (forms : List Datum) (stack : List Frame) (hdepth : stack.length = depth) :
    (readList depth opened items bound tokens hwithin).Agrees
      ⟨forms, .list opened items :: stack, none⟩ tokens
      (Reader.deliver forms · stack) := by
  cases tokens with
  | nil =>
      rw [readList]
      exact ⟨rfl, fun _ => rfl⟩
  | cons token rest =>
      rw [readList]
      by_cases hclosing : token.kind = .closing
      · rw [if_pos hclosing]
        refine Reader.run_cons ?_ rest
        simp [Reader.step, hclosing]
      rw [if_neg hclosing]
      by_cases hpoint : token.kind = .atom "."
      · rw [if_pos hpoint]
        cases items with
        | nil =>
            have hstep : Reader.step ⟨forms, .list opened [] :: stack, none⟩
                token =
              .error { cause := .dotBeforeElement, place := some token.place } := by
              simp [Reader.step, hpoint]
            exact Reading.agrees_failed hstep nofun _
        | cons item items =>
            have hstep : Reader.step
                ⟨forms, .list opened (item :: items) :: stack, none⟩ token =
              .ok ⟨forms, .dotted opened (item :: items) :: stack, none⟩ := by
              simp [Reader.step, hpoint]
            exact (readTail_agrees depth opened _ bound rest _ forms stack
              hdepth).step hstep
      · rw [if_neg hpoint]
        have hitem := readForm_agrees (depth + 1) token rest forms
          (.list opened items :: stack) (congrArg Nat.succ hdepth)
          (Reader.step_enter rfl hclosing hpoint)
        cases hread : readForm (depth + 1) (token :: rest) with
        | failed fault left =>
            rw [hread] at hitem
            exact hitem
        | done form left hshorter =>
            rw [hread] at hitem
            exact (readList_agrees depth opened (form :: items) bound left _
              forms stack hdepth).of_run hitem
termination_by 2 * tokens.length + 1

/-- The tail of a list, after its dot. -/
theorem readTail_agrees (depth : Nat) (opened : Location) (items : List Datum)
    (bound : Nat) (tokens : List Token) (hwithin : tokens.length ≤ bound)
    (forms : List Datum) (stack : List Frame) (hdepth : stack.length = depth) :
    (readTail depth opened items bound tokens hwithin).Agrees
      ⟨forms, .dotted opened items :: stack, none⟩ tokens
      (Reader.deliver forms · stack) := by
  cases tokens with
  | nil =>
      rw [readTail]
      exact ⟨rfl, fun _ => rfl⟩
  | cons token rest =>
      rw [readTail]
      by_cases hclosing : token.kind = .closing
      · rw [if_pos hclosing]
        have hstep : Reader.step ⟨forms, .dotted opened items :: stack, none⟩
            token =
          .error { cause := .dotWithoutTail, place := some token.place } := by
          simp [Reader.step, hclosing]
        exact Reading.agrees_failed hstep nofun _
      rw [if_neg hclosing]
      have htail := readForm_agrees (depth + 1) token rest forms
        (.dotted opened items :: stack) (congrArg Nat.succ hdepth)
        (by simp [Reader.step, hclosing])
      cases hread : readForm (depth + 1) (token :: rest) with
      | failed fault left =>
          rw [hread] at htail
          exact htail
      | done tail left hshorter =>
          rw [hread] at htail
          cases left with
          | nil => exact ⟨htail, fun _ => rfl⟩
          | cons close left =>
              by_cases hclose : close.kind = .closing
              · simp only [hclose, if_true]
                refine htail.trans (Reader.run_cons ?_ left)
                simp [Reader.step, Reader.deliver, hclose]
              · simp only [hclose, if_false]
                refine ⟨htail.trans (Reader.run_cons_error ?_ left), nofun⟩
                simp [Reader.step, Reader.deliver, hclose]
termination_by 2 * tokens.length + 1

end

/-- Reading forms until no token is left comes to what a reader with a stack makes
of the tokens, and if a list is missing its parenthesis then no token is left. -/
theorem readForms_agrees (forms : List Datum) (tokens : List Token) :
    (readForms forms tokens).1 = Reader.run ⟨forms, [], none⟩ tokens ∧
    ∀ fault, (readForms forms tokens).1 = .error fault →
      fault.kind = .unclosedParenthesis → (readForms forms tokens).2 = [] := by
  cases tokens with
  | nil =>
      rw [readForms]
      exact ⟨rfl, nofun⟩
  | cons token rest =>
      have hform := readForm_agrees 0 token rest forms [] rfl rfl
      rw [readForms]
      cases hread : readForm 0 (token :: rest) with
      | failed fault left =>
          rw [hread] at hform
          refine ⟨hform.1.symm, ?_⟩
          rintro _ ⟨⟩
          exact hform.2
      | done form left hshorter =>
          rw [hread] at hform
          have hlater := readForms_agrees (form :: forms) left
          exact ⟨hlater.1.trans hform.symm, hlater.2⟩
termination_by tokens.length
decreasing_by assumption

/-- Parsing is reading with a stack. -/
theorem parse_eq_run (tokens : List Token) :
    parse tokens = Reader.start.run tokens :=
  (readForms_agrees [] tokens).1

end Lisp
