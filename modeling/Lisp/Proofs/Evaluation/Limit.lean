import Lisp.Proofs.Evaluation.Adequacy
import Lisp.Proofs.Evaluation.Change

/-!
The depth limit is a threshold.  A run that is not cut short goes the same way
under every limit that leaves room for its peak, and under every smaller limit
it ends with a stack overflow.
-/

namespace Lisp

variable {H α : Type}

/-- The same session with another depth limit. -/
def Session.withLimit (s : Session H) (limit : Nat) : Session H :=
  { s with limit }

/-- Whether an answer says that evaluation went too deep. -/
def Overflows (answer : Answer H) : Prop :=
  ∃ fault : Fault, answer = .error fault ∧ fault.kind = .stackOverflow

theorem not_overflows_ok (value : Value H) : ¬ Overflows (.ok value) := by
  rintro ⟨fault, himpossible, -⟩
  cases himpossible

@[simp] theorem overflows_error (fault : Fault) :
    Overflows (.error fault : Answer H) ↔ fault.kind = .stackOverflow := by
  constructor
  · rintro ⟨other, hsame, hkind⟩
    cases hsame
    exact hkind
  · intro hkind
    exact ⟨fault, rfl, hkind⟩

theorem Session.record_depth (s : Session H) (event : Event H) :
    (s.record event).depth = s.depth :=
  (Changes.record s event).depth_eq

theorem Session.record_withLimit (s : Session H) (event : Event H)
    (limit : Nat) :
    (s.record event).withLimit limit = (s.withLimit limit).record event := by
  rcases s with ⟨forest, root, _, depth, sink, output, recording, log, batches⟩
  cases recording <;> rfl

theorem Session.atDepth_withLimit (s : Session H) (depth limit : Nat) :
    (s.atDepth depth).withLimit limit = (s.withLimit limit).atDepth depth := rfl

theorem Session.bind_withLimit (s : Session H) (scope : ScopeId)
    (name : String) (value : Value H) (limit : Nat) :
    (s.bind scope name value).withLimit limit =
      (s.withLimit limit).bind scope name value := rfl

/-- An outcome whose session has another depth limit. -/
def Outcome.withLimit (limit : Nat) : Outcome H α → Outcome H α
  | .value result s => .value result (s.withLimit limit)
  | .fault trouble s => .fault trouble (s.withLimit limit)
  | .unfinished => .unfinished

/-- What has nothing evaluated does not look at the limit. -/
theorem Deed.withLimit {scope : ScopeId} {x : Eval H (Turn H)}
    (hdeed : Deed scope x) (s : Session H) (limit : Nat) :
    x (s.withLimit limit) = (x s).withLimit limit := by
  cases hdeed with
  | answers value => rfl
  | fails fault => rfl
  | makes build => rfl
  | displays line =>
      have hsink : (s.withLimit limit).sink = s.sink := rfl
      simp only [bind, Eval.bind, Eval.emit, hsink]
      cases s.sink.reception.refusal? <;> rfl
  | namesMacro name build =>
      have hlogged := s.record_withLimit (.macroDefined name) limit
      simp only [bind, Eval.bind, Eval.note, Eval.update, ← hlogged]
      rfl

theorem Builtin.alone_withLimit {op : Builtin} {operands : List (Value H)}
    {scope : ScopeId} {s : Session H} {outcome : Outcome H (Turn H)}
    (hinert : op.evaluates = false)
    (hresult : op.alone operands scope s = outcome) (limit : Nat) :
    op.alone operands scope (s.withLimit limit) = outcome.withLimit limit := by
  rw [(op.alone_deed operands scope hinert).withLimit s limit, hresult]

/-- A run without overflow goes the same way under every limit that leaves
room for its peak. -/
theorem BigStep.withLimit {peak : Nat} {task : Task H} {s t : Session H}
    {answer : Answer H} (hderived : BigStep peak task s answer t)
    (hcalm : ¬ Overflows answer) {limit : Nat}
    (hroom : s.depth + peak ≤ limit) :
    BigStep peak task (s.withLimit limit) answer (t.withLimit limit) := by
  induction hderived with
  | tooDeep => exact absurd ⟨_, rfl, rfl⟩ hcalm
  | @deeper peak _ _ s _ _ _ _ ih =>
      have hbelow : s.depth < limit := by omega
      have hinner : s.depth + 1 + peak ≤ limit := by omega
      have hinside := ih hcalm hinner
      rw [Session.atDepth_withLimit] at hinside ⊢
      exact .deeper hbelow hinside
  | literal hplain => exact .literal hplain
  | bound hfound => exact .bound hfound
  | unbound hmissing => exact .unbound hmissing
  | dotted hshape himproper => exact .dotted hshape himproper
  | headFails hshape hproper _ ih =>
      exact .headFails hshape hproper (ih (by simpa using hcalm) hroom)
  | application hshape hproper hevaluated _ ih₁ ih₂ =>
      have hsame := hevaluated.depth_eq
      exact .application hshape hproper (ih₁ (not_overflows_ok _) (by omega))
        (ih₂ hcalm (by omega))
  | refused hcheck => exact .refused hcheck
  | operands hcheck heager _ ih => exact .operands hcheck heager (ih hcalm hroom)
  | operandFails _ ih => exact .operandFails (ih (by simpa using hcalm) hroom)
  | operand hevaluated _ ih₁ ih₂ =>
      have hsame := hevaluated.depth_eq
      exact .operand (ih₁ (not_overflows_ok _) (by omega))
        (ih₂ hcalm (by omega))
  | function heager hresult =>
      have hinert := Builtin.evaluates_eq_false heager
      exact .function heager (Builtin.alone_withLimit hinert hresult limit)
  | functionFails heager hresult =>
      have hinert := Builtin.evaluates_eq_false heager
      exact .functionFails heager (Builtin.alone_withLimit hinert hresult limit)
  | miscounted hdiffer => exact .miscounted hdiffer
  | body hagree _ ih => exact .body hagree (ih hcalm hroom)
  | expansion hcopied _ ih =>
      rw [Session.record_depth, Session.record_withLimit] at ih
      exact .expansion hcopied (ih hcalm hroom)
  | direct hcheck hraw hinert hresult =>
      exact .direct hcheck hraw hinert (Builtin.alone_withLimit hinert hresult limit)
  | directFails hcheck hraw hinert hresult =>
      exact .directFails hcheck hraw hinert
        (Builtin.alone_withLimit hinert hresult limit)
  | conditionFails _ ih =>
      exact .conditionFails (ih (by simpa using hcalm) hroom)
  | conditionRefused _ hother ih =>
      exact .conditionRefused (ih (not_overflows_ok _) hroom) hother
  | branch hevaluated _ ih₁ ih₂ =>
      have hsame := hevaluated.depth_eq
      exact .branch (ih₁ (not_overflows_ok _) (by omega))
        (ih₂ hcalm (by omega))
  | begin _ ih => exact .begin (ih hcalm hroom)
  | nothing => exact .nothing
  | last _ ih => exact .last (ih hcalm hroom)
  | effectFails _ ih => exact .effectFails (ih (by simpa using hcalm) hroom)
  | effect hevaluated _ ih₁ ih₂ =>
      have hsame := hevaluated.depth_eq
      exact .effect (ih₁ (not_overflows_ok _) (by omega))
        (ih₂ hcalm (by omega))
  | nameless hbinder hother => exact .nameless hbinder hother
  | definitionFails _ ih =>
      exact .definitionFails (ih (by simpa using hcalm) hroom)
  | definition _ ih =>
      rw [Session.bind_withLimit, Session.record_withLimit]
      exact .definition (ih (not_overflows_ok _) hroom)
  | unassignable hmissing => exact .unassignable hmissing
  | assignmentFails hfound _ ih =>
      exact .assignmentFails hfound (ih (by simpa using hcalm) hroom)
  | assignment hfound _ ih =>
      rw [Session.bind_withLimit]
      exact .assignment hfound (ih (not_overflows_ok _) hroom)

/-- Where the room runs out when one evaluation follows another: in the second,
and then the first comes through, or already in the first. -/
theorem BigStep.shortage {first later : Nat} {form value : Value H}
    {scope : ScopeId} {s mid : Session H}
    (hevaluated : BigStep first (.evaluate form scope) s (.ok value) mid)
    {limit : Nat} (hfits : s.depth ≤ limit)
    (hshort : limit < s.depth + max first later) :
    (mid.depth ≤ limit ∧ limit < mid.depth + later ∧
      BigStep first (.evaluate form scope) (s.withLimit limit) (.ok value)
        (mid.withLimit limit)) ∨
    limit < s.depth + first := by
  have hsame := hevaluated.depth_eq
  by_cases hroom : s.depth + first ≤ limit
  · exact .inl ⟨by omega, by omega,
      hevaluated.withLimit (not_overflows_ok _) hroom⟩
  · exact .inr (by omega)

/-- Under a limit below its peak a run without overflow is cut short, at the
first evaluation for which there is no room. -/
theorem BigStep.overflows_below {peak : Nat} {task : Task H}
    {s t : Session H} {answer : Answer H}
    (hderived : BigStep peak task s answer t) (hcalm : ¬ Overflows answer)
    {limit : Nat} (hfits : s.depth ≤ limit) (hshort : limit < s.depth + peak) :
    ∃ lower fault u, BigStep lower task (s.withLimit limit) (.error fault) u ∧
      fault.kind = .stackOverflow := by
  induction hderived with
  | tooDeep => exact absurd ⟨_, rfl, rfl⟩ hcalm
  | @deeper peak form _ s _ _ _ _ ih =>
      by_cases hfull : limit ≤ s.depth
      · exact ⟨1, _, _, .tooDeep hfull, rfl⟩
      · have hbelow : s.depth + 1 ≤ limit := by omega
        have hinner : limit < s.depth + 1 + peak := by omega
        obtain ⟨lower, fault, u, hexceeds, hkind⟩ := ih hcalm hbelow hinner
        rw [Session.atDepth_withLimit] at hexceeds
        exact ⟨lower + 1, fault, _, .deeper hbelow hexceeds, hkind⟩
  | headFails hshape hproper _ ih =>
      obtain ⟨lower, fault, u, hexceeds, hkind⟩ :=
        ih (by simpa using hcalm) hfits hshort
      exact ⟨lower, _, u, .headFails hshape hproper hexceeds, hkind⟩
  | application hshape hproper hevaluated _ ih₁ ih₂ =>
      rcases hevaluated.shortage hfits hshort with
        ⟨hfits, hshort, hevaluated⟩ | hshort
      · obtain ⟨lower, fault, u, hexceeds, hkind⟩ := ih₂ hcalm hfits hshort
        exact ⟨_, fault, u, .application hshape hproper hevaluated hexceeds, hkind⟩
      · obtain ⟨lower, fault, u, hexceeds, hkind⟩ :=
          ih₁ (not_overflows_ok _) hfits hshort
        exact ⟨lower, _, u, .headFails hshape hproper hexceeds, hkind⟩
  | operands hcheck heager _ ih =>
      obtain ⟨lower, fault, u, hexceeds, hkind⟩ := ih hcalm hfits hshort
      exact ⟨lower, fault, u, .operands hcheck heager hexceeds, hkind⟩
  | operandFails _ ih =>
      obtain ⟨lower, fault, u, hexceeds, hkind⟩ :=
        ih (by simpa using hcalm) hfits hshort
      exact ⟨lower, _, u, .operandFails hexceeds, hkind⟩
  | operand hevaluated _ ih₁ ih₂ =>
      rcases hevaluated.shortage hfits hshort with
        ⟨hfits, hshort, hevaluated⟩ | hshort
      · obtain ⟨lower, fault, u, hexceeds, hkind⟩ := ih₂ hcalm hfits hshort
        exact ⟨_, fault, u, .operand hevaluated hexceeds, hkind⟩
      · obtain ⟨lower, fault, u, hexceeds, hkind⟩ :=
          ih₁ (not_overflows_ok _) hfits hshort
        exact ⟨lower, _, u, .operandFails hexceeds, hkind⟩
  | body hagree _ ih =>
      obtain ⟨lower, fault, u, hexceeds, hkind⟩ := ih hcalm hfits hshort
      exact ⟨lower, fault, u, .body hagree hexceeds, hkind⟩
  | expansion hcopied _ ih =>
      rw [Session.record_depth] at ih
      obtain ⟨lower, fault, u, hexceeds, hkind⟩ := ih hcalm hfits hshort
      rw [Session.record_withLimit] at hexceeds
      exact ⟨lower, fault, u, .expansion hcopied hexceeds, hkind⟩
  | conditionFails _ ih =>
      obtain ⟨lower, fault, u, hexceeds, hkind⟩ :=
        ih (by simpa using hcalm) hfits hshort
      exact ⟨lower, _, u, .conditionFails hexceeds, hkind⟩
  | conditionRefused _ hother ih =>
      obtain ⟨lower, fault, u, hexceeds, hkind⟩ :=
        ih (not_overflows_ok _) hfits hshort
      exact ⟨lower, _, u, .conditionFails hexceeds, hkind⟩
  | branch hevaluated _ ih₁ ih₂ =>
      rcases hevaluated.shortage hfits hshort with
        ⟨hfits, hshort, hevaluated⟩ | hshort
      · obtain ⟨lower, fault, u, hexceeds, hkind⟩ := ih₂ hcalm hfits hshort
        exact ⟨_, fault, u, .branch hevaluated hexceeds, hkind⟩
      · obtain ⟨lower, fault, u, hexceeds, hkind⟩ :=
          ih₁ (not_overflows_ok _) hfits hshort
        exact ⟨lower, _, u, .conditionFails hexceeds, hkind⟩
  | begin _ ih =>
      obtain ⟨lower, fault, u, hexceeds, hkind⟩ := ih hcalm hfits hshort
      exact ⟨lower, fault, u, .begin hexceeds, hkind⟩
  | last _ ih =>
      obtain ⟨lower, fault, u, hexceeds, hkind⟩ := ih hcalm hfits hshort
      exact ⟨lower, fault, u, .last hexceeds, hkind⟩
  | effectFails _ ih =>
      obtain ⟨lower, fault, u, hexceeds, hkind⟩ :=
        ih (by simpa using hcalm) hfits hshort
      exact ⟨lower, _, u, .effectFails hexceeds, hkind⟩
  | effect hevaluated _ ih₁ ih₂ =>
      rcases hevaluated.shortage hfits hshort with
        ⟨hfits, hshort, hevaluated⟩ | hshort
      · obtain ⟨lower, fault, u, hexceeds, hkind⟩ := ih₂ hcalm hfits hshort
        exact ⟨_, fault, u, .effect hevaluated hexceeds, hkind⟩
      · obtain ⟨lower, fault, u, hexceeds, hkind⟩ :=
          ih₁ (not_overflows_ok _) hfits hshort
        exact ⟨lower, _, u, .effectFails hexceeds, hkind⟩
  | definitionFails _ ih =>
      obtain ⟨lower, fault, u, hexceeds, hkind⟩ :=
        ih (by simpa using hcalm) hfits hshort
      exact ⟨lower, _, u, .definitionFails hexceeds, hkind⟩
  | definition _ ih =>
      obtain ⟨lower, fault, u, hexceeds, hkind⟩ :=
        ih (not_overflows_ok _) hfits hshort
      exact ⟨lower, _, u, .definitionFails hexceeds, hkind⟩
  | assignmentFails hfound _ ih =>
      obtain ⟨lower, fault, u, hexceeds, hkind⟩ :=
        ih (by simpa using hcalm) hfits hshort
      exact ⟨lower, _, u, .assignmentFails hfound hexceeds, hkind⟩
  | assignment hfound _ ih =>
      obtain ⟨lower, fault, u, hexceeds, hkind⟩ :=
        ih (not_overflows_ok _) hfits hshort
      exact ⟨lower, _, u, .assignmentFails hfound hexceeds, hkind⟩
  | _ => omega

/-- Evaluation has at most one answer and leaves at most one session. -/
theorem Evaluates.unique {form : Value Empty} {scope : ScopeId}
    {s t u : Session Empty} {answer other : Answer Empty}
    (hends : Evaluates form scope s answer t)
    (hendsToo : Evaluates form scope s other u) : answer = other ∧ t = u := by
  obtain ⟨_, hderived⟩ := hends.bigStep
  obtain ⟨_, hderivedToo⟩ := hendsToo.bigStep
  obtain ⟨steps, hhere, hthere⟩ :=
    (hderived.eventually_perform.and hderivedToo.eventually_perform).exists
  have hsame : Outcome.ofAnswer answer t = .ofAnswer other u :=
    hhere.symm.trans hthere
  cases answer <;> cases other <;> cases hsame <;> exact ⟨rfl, rfl⟩

section Threshold

variable {form : Value Empty} {scope : ScopeId} {s t : Session Empty}
  {answer : Answer Empty} {limit peak : Nat}

theorem evaluates_of_peak_le (houtermost : s.depth = 0)
    (hderived : BigStep peak (.evaluate form scope) (s.withLimit limit)
      answer t) (hcalm : ¬ Overflows answer) {other : Nat}
    (hroom : peak ≤ other) :
    Evaluates form scope (s.withLimit other) answer (t.withLimit other) := by
  have hstart : (s.withLimit limit).depth = 0 := houtermost
  exact .of_bigStep (hderived.withLimit hcalm (by omega))

theorem evaluates_overflow_of_lt_peak (houtermost : s.depth = 0)
    (hderived : BigStep peak (.evaluate form scope) (s.withLimit limit)
      answer t) (hcalm : ¬ Overflows answer) {other : Nat}
    (hshort : other < peak) :
    ∃ fault u, Evaluates form scope (s.withLimit other) (.error fault) u ∧
      fault.kind = .stackOverflow := by
  have hstart : (s.withLimit limit).depth = 0 := houtermost
  obtain ⟨_, fault, u, hexceeds, hkind⟩ :=
    hderived.overflows_below hcalm (by omega : _ ≤ other) (by omega)
  exact ⟨fault, u, .of_bigStep hexceeds, hkind⟩

/-- The peak of a run without overflow is determined: it is the least limit
that leaves room for the run. -/
theorem peak_unique (houtermost : s.depth = 0)
    (hderived : BigStep peak (.evaluate form scope) (s.withLimit limit)
      answer t) (hcalm : ¬ Overflows answer) {other : Nat}
    (hderivedToo : BigStep other (.evaluate form scope) (s.withLimit limit)
      answer t) : peak = other := by
  -- Of two different peaks the smaller, as a limit, would both let the run
  -- through and cut it short.
  have habsurdity : ∀ {low high : Nat},
      BigStep low (.evaluate form scope) (s.withLimit limit) answer t →
      BigStep high (.evaluate form scope) (s.withLimit limit) answer t →
      ¬ low < high := by
    intro low high hatLow hatHigh hlower
    obtain ⟨fault, u, hexceeds, hkind⟩ :=
      evaluates_overflow_of_lt_peak houtermost hatHigh hcalm hlower
    have hthrough := evaluates_of_peak_le houtermost hatLow hcalm le_rfl
    obtain ⟨hsame, -⟩ := hthrough.unique hexceeds
    exact hcalm ⟨fault, hsame, hkind⟩
  exact le_antisymm (not_lt.mp (habsurdity hderivedToo hderived))
    (not_lt.mp (habsurdity hderived hderivedToo))

end Threshold

/-- The depth limit is a threshold.  If an outermost evaluation ends without
overflow under some limit, it has one peak, the greatest number of evaluations
under way at once; under every limit from the peak on it ends with the same
answer and the same session but for the limit, and under every smaller limit
with a stack overflow. -/
theorem evaluates_limit_threshold (form : Value Empty)
    (scope : ScopeId) (s : Session Empty) (limit : Nat)
    (answer : Answer Empty) (t : Session Empty) (houtermost : s.depth = 0)
    (hends : Evaluates form scope (s.withLimit limit) answer t)
    (hcalm : ¬ Overflows answer) :
    ∃ peak,
      (∀ n, BigStep n (.evaluate form scope) (s.withLimit limit) answer t ↔
        n = peak) ∧
      (∀ other, peak ≤ other →
        Evaluates form scope (s.withLimit other) answer
          (t.withLimit other)) ∧
      ∀ other, other < peak →
        ∃ fault u, Evaluates form scope (s.withLimit other) (.error fault) u ∧
          fault.kind = .stackOverflow := by
  obtain ⟨peak, hderived⟩ := hends.bigStep
  refine ⟨peak, ?_, ?_, ?_⟩
  · intro n
    constructor
    · intro hderivedToo
      exact peak_unique houtermost hderivedToo hcalm hderived
    · rintro rfl
      exact hderived
  · intro other hroom
    exact evaluates_of_peak_le houtermost hderived hcalm hroom
  · intro other hshort
    exact evaluates_overflow_of_lt_peak houtermost hderived hcalm hshort

/-- `(if #t 7 8)`, with the builtin itself as its head. -/
def sampleChoice : Value Empty :=
  .list 0 [.native (.builtin .conditional), .bool true, .int 7, .int 8]

theorem sampleChoice_bigStep (s : Session Empty)
    (hroom : s.depth + 2 ≤ s.limit) :
    BigStep 2 (.evaluate sampleChoice s.root) s (.ok (.int 7)) s := by
  have hbelow : (s.atDepth (s.depth + 1)).depth < s.limit := hroom
  have hliteral : ∀ form : Value Empty, form.isLiteral = true →
      BigStep 1 (.evaluate form s.root) (s.atDepth (s.depth + 1)) (.ok form)
        (s.atDepth (s.depth + 1)) := fun form hplain =>
    .deeper hbelow (.literal hplain)
  have hchosen : BigStep 0
      (.value (if true then .int 7 else .int 8) s.root)
      (s.atDepth (s.depth + 1)) (.ok (.int 7)) (s.atDepth (s.depth + 1)) :=
    .literal rfl
  have hinside : BigStep 1 (.value sampleChoice s.root)
      (s.atDepth (s.depth + 1)) (.ok (.int 7)) (s.atDepth (s.depth + 1)) :=
    .application rfl rfl (hliteral _ rfl) (.branch (hliteral _ rfl) hchosen)
  exact .deeper (by omega) hinside

/-- The choice is made under a limit of two and not under a limit of one. -/
theorem sampleChoice_threshold :
    Evaluates sampleChoice ⟨0⟩ ((Session.fresh 0 {} false).withLimit 2)
      (.ok (.int 7)) ((Session.fresh 0 {} false).withLimit 2) ∧
    ∃ fault t, Evaluates sampleChoice ⟨0⟩
      ((Session.fresh 0 {} false).withLimit 1) (.error fault) t ∧
        fault.kind = .stackOverflow := by
  have hderived := sampleChoice_bigStep
    ((Session.fresh 0 {} false).withLimit 8) (by decide)
  obtain ⟨peak, hpeak, habove, hbelow⟩ := evaluates_limit_threshold
    sampleChoice ⟨0⟩ (Session.fresh 0 {} false) 8 (.ok (.int 7))
    ((Session.fresh 0 {} false).withLimit 8) rfl (.of_bigStep hderived)
    (not_overflows_ok _)
  have htwo : 2 = peak := (hpeak 2).mp hderived
  exact ⟨habove 2 (by omega), hbelow 1 (by omega)⟩

end Lisp
