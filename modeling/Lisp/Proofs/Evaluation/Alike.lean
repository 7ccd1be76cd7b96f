import Lisp.Proofs.Evaluation.Change
import Lisp.Proofs.Evaluation.Turns
import Mathlib.Data.List.Forall2

/-!
Computations side by side.  Two computations are matched if they go on alike in
sessions that are alike: with related values, or with faults of one cause.  One
rule for each way of putting computations together.
-/

namespace Lisp

variable {H α β : Type}

/-- Sessions that differ in their logs at most. -/
def Session.SameButLog (s t : Session H) : Prop :=
  ∃ log, t = { s with log }

/-- Sessions with the same scopes, given as `forest`, that differ in their logs
at most. -/
def Session.Twins (forest : Forest H) (s t : Session H) : Prop :=
  s.forest = forest ∧ s.SameButLog t

/-- Outcomes of one kind, in sessions related by `S`: with values related by
`R`, or with faults of one cause, whatever they are blamed on. -/
inductive Outcome.Related (S : Session H → Session H → Prop)
    (R : α → β → Prop) : Outcome H α → Outcome H β → Prop where
  | value {a : α} {b : β} {s t : Session H} (hvalues : R a b)
      (hsessions : S s t) : Related S R (.value a s) (.value b t)
  | fault {trouble other : Fault} {s t : Session H}
      (hcause : trouble.cause = other.cause) (hsessions : S s t) :
      Related S R (.fault trouble s) (.fault other t)
  | unfinished : Related S R .unfinished .unfinished

/-- Outcomes with one value, or with faults of one cause and so of one kind and
with one message.  The sessions differ in their logs at most; the output and the
bindings of every scope are the same. -/
def Outcome.Matches (first second : Outcome H (Value H)) : Prop :=
  first.Related Session.SameButLog Eq second

/-- From twin sessions two computations have related outcomes, again in twin
sessions.  They open no scope and bind nothing. -/
def Matched (forest : Forest H) (R : α → β → Prop) (x : Eval H α)
    (y : Eval H β) : Prop :=
  ∀ s t, s.Twins forest t → (x s).Related (Session.Twins forest) R (y t)

theorem Session.SameButLog.record_left (s : Session H) (event : Event H) :
    (s.record event).SameButLog s := by
  unfold record
  split
  · exact ⟨s.log, rfl⟩
  · exact ⟨s.log, rfl⟩

theorem Session.SameButLog.record {s t : Session H} (hsame : s.SameButLog t)
    (event other : Event H) :
    (s.record event).SameButLog (t.record other) := by
  obtain ⟨log, rfl⟩ := hsame
  unfold Session.record
  split
  · exact ⟨_, rfl⟩
  · exact ⟨log, rfl⟩

theorem Session.Twins.forest_right {forest : Forest H} {s t : Session H}
    (htwins : s.Twins forest t) : t.forest = forest := by
  obtain ⟨hhere, log, rfl⟩ := htwins
  exact hhere

theorem Outcome.Related.mono {S T : Session H → Session H → Prop}
    {R : α → β → Prop} {x : Outcome H α} {y : Outcome H β}
    (hrelated : x.Related S R y) (hweaker : ∀ s t, S s t → T s t) :
    x.Related T R y := by
  cases hrelated with
  | value hvalues hsessions => exact .value hvalues (hweaker _ _ hsessions)
  | fault hcause hsessions => exact .fault hcause (hweaker _ _ hsessions)
  | unfinished => exact .unfinished

/-- Coming back up from one level deeper relates what was related there. -/
theorem Outcome.Related.deeper {S : Session H → Session H → Prop}
    {R : α → β → Prop} {x : Eval H α} {y : Eval H β} {s t : Session H}
    (hinside : (x (s.atDepth (s.depth + 1))).Related S R
      (y (t.atDepth (t.depth + 1))))
    (hback : ∀ u v, S u v → S (u.atDepth (u.depth - 1)) (v.atDepth (v.depth - 1))) :
    (Eval.deeper x s).Related S R (Eval.deeper y t) := by
  unfold Session.atDepth at hinside
  unfold Eval.deeper
  generalize x { s with depth := s.depth + 1 } = first at hinside ⊢
  generalize y { t with depth := t.depth + 1 } = second at hinside ⊢
  cases hinside with
  | value hvalues hsessions => exact .value hvalues (hback _ _ hsessions)
  | fault hcause hsessions => exact .fault hcause (hback _ _ hsessions)
  | unfinished => exact .unfinished

/-- Related parts make related computations.  What comes next may rely on the
value that the first part has. -/
theorem Outcome.Related.bind {γ δ : Type} {S T : Session H → Session H → Prop}
    {R : α → β → Prop} {Q : γ → δ → Prop} {x : Eval H α} {y : Eval H β}
    {f : α → Eval H γ} {g : β → Eval H δ} {s t : Session H}
    (hfirst : (x s).Related S R (y t)) (hweaker : ∀ u v, S u v → T u v)
    (hnext : ∀ a b u v, x s = .value a u → R a b → S u v →
      (f a u).Related T Q (g b v)) :
    ((x >>= f) s).Related T Q ((y >>= g) t) := by
  rw [Eval.bind_apply, Eval.bind_apply]
  generalize x s = left at hfirst hnext ⊢
  generalize y t = right at hfirst ⊢
  cases hfirst with
  | value hvalues hsessions => exact hnext _ _ _ _ rfl hvalues hsessions
  | fault hcause hsessions => exact .fault hcause (hweaker _ _ hsessions)
  | unfinished => exact .unfinished

/-- Where faults are blamed does not matter. -/
theorem Outcome.Related.located {S : Session H → Session H → Prop}
    {R : α → β → Prop} {x : Eval H α} {y : Eval H β} {s t : Session H}
    (hinside : (x s).Related S R (y t)) (place other : Option Location) :
    (Eval.located place x s).Related S R (Eval.located other y t) := by
  unfold Eval.located
  generalize x s = left at hinside ⊢
  generalize y t = right at hinside ⊢
  cases hinside with
  | value hvalues hsessions => exact .value hvalues hsessions
  | fault hcause hsessions => exact .fault hcause hsessions
  | unfinished => exact .unfinished

namespace Matched

variable {forest : Forest H} {γ δ : Type} {R : α → β → Prop} {Q : γ → δ → Prop}

theorem pure {a : α} {b : β} (hrelated : R a b) :
    Matched forest R (Pure.pure a : Eval H α) (Pure.pure b : Eval H β) :=
  fun _ _ htwins => .value hrelated htwins

theorem fail {fault other : Fault} (hcause : fault.cause = other.cause) :
    Matched forest R (.fail fault : Eval H α) (.fail other : Eval H β) :=
  fun _ _ htwins => .fault hcause htwins

theorem ofExcept (result : Except Cause α) :
    Matched forest Eq (.ofExcept result : Eval H α) (.ofExcept result) := by
  cases result with
  | ok value => exact pure rfl
  | error cause => exact fail rfl

theorem bind {x : Eval H α} {y : Eval H β} {f : α → Eval H γ}
    {g : β → Eval H δ} (hfirst : Matched forest R x y)
    (hnext : ∀ a b, R a b → Matched forest Q (f a) (g b)) :
    Matched forest Q (x >>= f) (y >>= g) := by
  intro s t htwins
  apply (hfirst s t htwins).bind (fun _ _ => id)
  exact fun a b u v _ hvalues hsessions => hnext a b hvalues u v hsessions

theorem located {x : Eval H α} {y : Eval H β} (hinside : Matched forest R x y)
    (place other : Option Location) :
    Matched forest R (.located place x) (.located other y) :=
  fun s t htwins => (hinside s t htwins).located place other

theorem freshBatch : Matched forest Eq (Eval.freshBatch : Eval H Nat)
    .freshBatch := by
  rintro s _ ⟨hhere, log, rfl⟩
  exact .value rfl ⟨hhere, log, rfl⟩

theorem emit (line : String) : Matched forest Eq (Eval.emit line : Eval H Unit)
    (.emit line) := by
  rintro s _ ⟨hhere, log, rfl⟩
  unfold Eval.emit
  dsimp only
  split
  · exact .value rfl ⟨hhere, log, rfl⟩
  · exact .fault rfl ⟨hhere, log, rfl⟩

/-- A builtin function does with values what it does, whoever calls it and
wherever it is called from. -/
theorem builtin {op : Builtin} (heager : op.evaluatesOperands = true)
    {R : Turn H → Turn H → Prop} (hdone : ∀ value, R (.done value) (.done value))
    (evaluator other : Evaluator H) (operands : List (Value H))
    (scope place : ScopeId) :
    Matched forest R (op.call evaluator operands scope)
      (op.call other operands place) := by
  have hmiscounted : ∀ count, Matched forest R
      (wrongCount count operands.length) (wrongCount count operands.length) :=
    fun _ => fail rfl
  have hreturns : ∀ {ι : Type} (result : Except Cause ι) (build : ι → Value H),
      Matched forest R (do return .done (build (← .ofExcept result)))
        (do return .done (build (← .ofExcept result))) :=
    fun result build => (ofExcept result).bind fun a b hsame =>
      pure (hsame ▸ hdone (build a))
  have hmakes : ∀ build : Nat → Value H,
      Matched forest R (do return .done (build (← .freshBatch)))
        (do return .done (build (← .freshBatch))) :=
    fun build => freshBatch.bind fun a b hsame => pure (hsame ▸ hdone (build a))
  cases op with
  | arith op =>
      simp only [Builtin.call]
      split
      · next a b =>
          exact hreturns (a.arithmetic op b) fun value => value
      · exact hmiscounted 2
  | compare test =>
      simp only [Builtin.call]
      split
      · next a b =>
          exact hreturns (a.order b) fun order => .bool (test.holds order)
      · exact hmiscounted 2
  | equal =>
      simp only [Builtin.call]
      split
      · next a b =>
          exact hreturns (a.equal b) fun same => .bool same
      · exact hmiscounted 2
  | car | cdr =>
      simp only [Builtin.call]
      split
      · exact pure (hdone _)
      · exact fail rfl
      · exact hmiscounted 1
  | cons =>
      simp only [Builtin.call]
      split
      · next head rest =>
          exact hmakes fun batch => .pair (.made batch 0) head rest none
      · exact hmiscounted 2
  | list => exact hmakes fun batch => .list batch operands
  | display => exact (emit _).bind fun _ _ _ => pure (hdone .nil)
  | repr =>
      simp only [Builtin.call]
      split
      · exact pure (hdone _)
      · exact hmiscounted 1
  | _ => cases heager

section Evaluators

variable {evaluator : Evaluator H} {outer inner : ScopeId}

/-- Forms that match one by one match when they are all evaluated in turn. -/
theorem evaluateAll {P : Value H → Value H → Prop}
    (heach : ∀ form other, P form other →
      Matched forest Eq (evaluator form outer) (evaluator other inner))
    {forms others : List (Value H)} (hpaired : List.Forall₂ P forms others) :
    Matched forest Eq (evaluateAll evaluator forms outer)
      (evaluateAll evaluator others inner) := by
  unfold Lisp.evaluateAll
  induction hpaired with
  | nil => exact pure rfl
  | cons hfirst hrest ih =>
      rw [List.mapM_cons, List.mapM_cons]
      refine (heach _ _ hfirst).bind fun value other hsame => ?_
      exact ih.bind fun values others hsameRest => pure (by rw [hsame, hsameRest])

/-- Forms that match still do one level deeper, or at the limit. -/
theorem nested {R : Value H → Value H → Prop} {form other : Value H}
    (hinside : Matched forest R (evaluator form outer) (evaluator other inner)) :
    Matched forest R (nested evaluator form outer)
      (nested evaluator other inner) := by
  rintro s t ⟨hhere, hsame⟩
  have hlevels : t.limit = s.limit ∧ t.depth = s.depth := by
    obtain ⟨log, rfl⟩ := hsame
    exact ⟨rfl, rfl⟩
  unfold Lisp.nested
  rw [hlevels.1, hlevels.2]
  split
  · refine .fault rfl ⟨?_, hsame.record _ _⟩
    rw [s.forest_record, hhere]
  · apply Outcome.Related.deeper
    · apply hinside
      obtain ⟨log, rfl⟩ := hsame
      exact ⟨hhere, log, rfl⟩
    · rintro u _ ⟨hthere, log, rfl⟩
      exact ⟨hthere, log, rfl⟩

end Evaluators

end Matched

end Lisp
