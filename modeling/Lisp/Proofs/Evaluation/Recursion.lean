import Lisp.Proofs.Arithmetic.Exactness
import Lisp.Proofs.Places.Written

/-!
Recursion and depth.  A procedure that calls itself in its last step goes round
at the depth it began at, so any limit that lets it begin lets it finish.  One
that still has to work on the result of the call takes a level for every call,
and the limits under which it finishes are those its argument leaves room for.
Two procedures stand for the two kinds: `count-down`, which hands its total on,
and `sum-to`, which adds to what the call comes to.
-/

namespace Lisp

/-- `(if (= n 0) acc (count-down (- n 1) (+ acc 1)))`. -/
def countDownLoop : Datum :=
  .form [.ref "if" none,
    .form [.ref "=" none, .ref "n" none, .int 0],
    .ref "acc" none,
    .form [.ref "count-down" none,
      .form [.ref "-" none, .ref "n" none, .int 1],
      .form [.ref "+" none, .ref "acc" none, .int 1]]]

/-- `(if (= n 0) 0 (+ n (sum-to (- n 1))))`. -/
def sumToLoop : Datum :=
  .form [.ref "if" none,
    .form [.ref "=" none, .ref "n" none, .int 0],
    .int 0,
    .form [.ref "+" none, .ref "n" none,
      .form [.ref "sum-to" none,
        .form [.ref "-" none, .ref "n" none, .int 1]]]]

section Steps

variable {form body : Value Empty} {scope : ScopeId} {s : Session Empty}
  {name : String} {id : ObjectId} {params : List String}
  {values : List (Value Empty)} {k : Int}

/-- Procedures that go on until their parameter `n` is zero. -/
theorem Session.InCall.untilZero
    (hcall : s.InCall name id params body scope values)
    (hfree : "if" ∉ params ∧ "=" ∉ params) (hroom : s.depth + 2 ≤ s.limit)
    {stop go : Datum} (hcopy : form.CopyOf (.form [.ref "if" none,
      .form [.ref "=" none, .ref "n" none, .int 0], stop, go]))
    (hcounter : s.forest.lookup scope "n" = some (.ofResult true k)) :
    ∃ last next, last.CopyOf stop ∧ next.CopyOf go ∧
      ∀ {peak : Nat} {answer : Answer Empty} {t : Session Empty},
        BigStep peak (.value (if k = 0 then last else next) scope) s answer t →
        BigStep (max 2 peak) (.value form scope) s answer t := by
  have hchoice := hcall.builtin .conditional hfree.1
  have hequality := hcall.builtin (.compare .eq) hfree.2
  obtain ⟨operands, hcopies, hcalled⟩ :=
    BigStep.namedCall hcopy (by omega : s.depth < s.limit) hchoice
  obtain _ | ⟨htest, _ | ⟨hstopped, _ | ⟨hgoes, ⟨⟩⟩⟩⟩ := hcopies
  have hordered : (Value.ofResult true k : Value Empty).order (.int 0) =
      .ok (some (compare k 0)) :=
    Value.order_of_integers (Value.integer?_ofResult true k) rfl
  have hequal : Comparison.eq.holds (some (compare k 0)) = decide (k = 0) := by
    rw [Comparison.holds, Bool.eq_iff_iff, decide_eq_true_eq, beq_iff_eq,
      Int.compare_eq_eq]
  have htested := BigStep.withConstant htest rfl rfl hroom hequality hcounter
    (Builtin.alone_compare hordered scope)
  rw [hequal] at htested
  refine ⟨_, _, hstopped, hgoes, fun {peak answer t} hchosen => ?_⟩
  have hbranched := hcalled (.branch htested (by simpa using hchosen))
  rwa [← Nat.max_assoc] at hbranched

theorem fitsWord_of_lt {n : Nat} (hhigh : (n : Int) < 2 ^ 63) :
    fitsWord n = true := by
  rw [fitsWord_iff]
  omega

/-- `(- n 1)` for a machine integer above zero. -/
theorem BigStep.oneLess {k : Nat}
    (hcopy : form.CopyOf (.form [.ref "-" none, .ref "n" none, .int 1]))
    (hroom : s.depth + 2 ≤ s.limit)
    (hminus : s.forest.lookup scope "-" =
      some (.native (.builtin (.arith .sub))))
    (hcounter : s.forest.lookup scope "n" =
      some (.ofResult true (k + 1 : Nat)))
    (hhigh : ((k + 1 : Nat) : Int) < 2 ^ 63) :
    BigStep 2 (.evaluate form scope) s (.ok (.ofResult true k)) s := by
  have hfewer : ArithOp.sub.exact (k + 1 : Nat) 1 = k := by
    simp [ArithOp.exact]
  have hresult := Value.arithmetic_of_fits (H := Empty) .sub (by decide)
    (fitsWord_of_lt hhigh) (by decide : fitsWord 1 = true)
  rw [hfewer] at hresult
  exact .withConstant hcopy rfl rfl hroom hminus hcounter
    (Builtin.alone_arith hresult scope)

/-- `(+ acc 1)` for a machine integer that is not negative. -/
theorem BigStep.oneMore {a : Nat}
    (hcopy : form.CopyOf (.form [.ref "+" none, .ref "acc" none, .int 1]))
    (hroom : s.depth + 2 ≤ s.limit)
    (hplus : s.forest.lookup scope "+" =
      some (.native (.builtin (.arith .add))))
    (htotal : s.forest.lookup scope "acc" = some (.ofResult true a))
    (hhigh : (a : Int) < 2 ^ 63) :
    BigStep 2 (.evaluate form scope) s
      (.ok (.ofResult true (a + 1 : Nat))) s := by
  have hresult := Value.add_of_nonneg (H := Empty) (fitsWord_of_lt hhigh)
    (Int.natCast_nonneg a) (by decide : (0 : Int) ≤ 1)
  exact .withConstant hcopy rfl rfl hroom hplus htotal
    (Builtin.alone_arith hresult scope)

end Steps

section CountDown

variable {id : ObjectId} {body : Value Empty} {s t : Session Empty}
  {scope : ScopeId} {a : Nat} {answer : Answer Empty}

/-- At zero `count-down` has the number it has counted up to. -/
theorem countDown_last (hcopy : body.CopyOf countDownLoop)
    (hroom : s.depth + 2 ≤ s.limit)
    (hcall : s.InCall "count-down" id ["n", "acc"] body scope
      [.ofResult true 0, .ofResult true a]) :
    BigStep 2 (.value body scope) s (.ok (.ofResult true a)) s := by
  have hcounter : s.forest.lookup scope "n" = some (.ofResult true 0) :=
    hcall.parameter (by simp)
  have htotal : s.forest.lookup scope "acc" = some (.ofResult true a) :=
    hcall.parameter (by simp)
  obtain ⟨last, next, hstopped, -, hstep⟩ :=
    hcall.untilZero (by decide) hroom hcopy hcounter
  obtain rfl := hstopped.eq_ref
  have hended : BigStep 0 (.value (.ref "acc" none) scope) s
      (.ok (.ofResult true a)) s := .bound htotal
  exact hstep (by simpa using hended)

/-- Above zero `count-down` gives way to its own body, in a new scope and at the
same depth. -/
theorem countDown_round {k : Nat} (hcopy : body.CopyOf countDownLoop)
    (hroom : s.depth + 2 ≤ s.limit) (hhigh : ((k + 1 + a : Nat) : Int) < 2 ^ 63)
    (hcall : s.InCall "count-down" id ["n", "acc"] body scope
      [.ofResult true (k + 1 : Nat), .ofResult true a])
    (hrest : BigStep 2 (.value body s.nextScope)
      (s.openScope ⟨.ofLists ["n", "acc"]
        [.ofResult true k, .ofResult true (a + 1 : Nat)], some s.root⟩)
      answer t) :
    BigStep 2 (.value body scope) s answer t := by
  have hcounter : s.forest.lookup scope "n" =
      some (.ofResult true (k + 1 : Nat)) := hcall.parameter (by simp)
  have htotal : s.forest.lookup scope "acc" = some (.ofResult true a) :=
    hcall.parameter (by simp)
  obtain ⟨last, next, -, hgoes, hstep⟩ :=
    hcall.untilZero (by decide) hroom hcopy hcounter
  obtain ⟨operands, hcopies, hcalled⟩ := BigStep.namedCall hgoes
    (by omega : s.depth < s.limit) (hcall.itself (by decide))
  obtain _ | ⟨hfirst, _ | ⟨hsecond, ⟨⟩⟩⟩ := hcopies
  have hless := BigStep.oneLess hfirst hroom
    (hcall.builtin (.arith .sub) (by decide)) hcounter (by omega)
  have hmore := BigStep.oneMore hsecond hroom
    (hcall.builtin (.arith .add) (by decide)) htotal (by omega)
  have hgone := hcalled (.invocation (.cons hless (.cons hmore .nil))
    (List.cons_ne_nil _ _) (by simp) hrest)
  rw [if_neg (by omega)] at hstep
  exact hstep hgone

/-- However often `count-down` goes round, it goes no deeper. -/
theorem countDown_loop (hcopy : body.CopyOf countDownLoop) (k : Nat)
    (hcall : s.InCall "count-down" id ["n", "acc"] body scope
      [.ofResult true k, .ofResult true a])
    (hroom : s.depth + 2 ≤ s.limit) (hhigh : ((k + a : Nat) : Int) < 2 ^ 63) :
    ∃ t, BigStep 2 (.value body scope) s
      (.ok (.ofResult true (k + a : Nat))) t := by
  induction k generalizing s scope a with
  | zero =>
      rw [Nat.zero_add]
      exact ⟨s, countDown_last hcopy hroom hcall⟩
  | succ k ih =>
      have hsame : k + 1 + a = k + (a + 1) := by omega
      -- one number less to go and one more counted make up the same total
      have hagain := Session.inCall_openScope hcall.equipped hcall.distinct
        [.ofResult true k, .ofResult true (a + 1 : Nat)] (by simp) s.depth
      obtain ⟨t, hrest⟩ := ih hagain hroom (by omega)
      rw [hsame]
      exact ⟨t, countDown_round hcopy hroom hhigh hcall hrest⟩

theorem countDown_fits {n : Nat} (hhigh : (n : Int) < 2 ^ 63) :
    ∀ m ∈ [n, 0], fitsWord m = true := by
  intro m hmem
  apply fitsWord_of_lt
  simp only [List.mem_cons, List.not_mem_nil, or_false] at hmem
  omega

/-- A call of `count-down` at the top level takes three levels. -/
theorem countDown_call {n : Nat} {form : Value Empty}
    (hcopy : body.CopyOf countDownLoop)
    (hequipped : s.forest.Equipped s.root "count-down"
      (.closure id ["n", "acc"] body s.root))
    (hasked : form.CopyOf (.numberCall "count-down" [n, 0]))
    (hroom : s.depth + 3 ≤ s.limit) (hhigh : (n : Int) < 2 ^ 63) :
    ∃ t, BigStep 3 (.evaluate form s.root) s (.ok (.int (Int64.ofInt n))) t := by
  have hfits := countDown_fits hhigh
  apply BigStep.topLevelCall hequipped (by decide) hfits (List.cons_ne_nil _ _)
    (by simp) hasked (by omega) (by decide)
  intro u scope hcall hdeeper hsameLimit
  rw [← Value.ofResult_of_fits (fitsWord_of_lt hhigh)]
  exact countDown_loop (a := 0) hcopy n hcall (by omega) hhigh

end CountDown

section SumTo

variable {id : ObjectId} {body : Value Empty} {s t : Session Empty}
  {scope : ScopeId}

theorem sumTo_last (hcopy : body.CopyOf sumToLoop)
    (hroom : s.depth + 2 ≤ s.limit)
    (hcall : s.InCall "sum-to" id ["n"] body scope [.ofResult true 0]) :
    BigStep 2 (.value body scope) s (.ok (.ofResult true 0)) s := by
  have hcounter : s.forest.lookup scope "n" = some (.ofResult true 0) :=
    hcall.parameter (by simp)
  obtain ⟨last, next, hstopped, -, hstep⟩ :=
    hcall.untilZero (by decide) hroom hcopy hcounter
  obtain rfl := hstopped.eq_int
  have hended : BigStep 0 (.value (.int 0) scope) s
      (.ok (.ofResult true 0)) s := .literal rfl
  exact hstep (by simpa using hended)

/-- Above zero `sum-to` waits for its own body, one level further down, to add to
what comes of it. -/
theorem sumTo_round {peak k : Nat} {sum : Int} (hcopy : body.CopyOf sumToLoop)
    (hbusy : 2 ≤ peak) (hroom : s.depth + 3 ≤ s.limit)
    (hhigh : ((k + 1 : Nat) : Int) < 2 ^ 63) (hlow : 0 ≤ sum)
    (hcall : s.InCall "sum-to" id ["n"] body scope
      [.ofResult true (k + 1 : Nat)])
    (hrest : BigStep peak (.value body s.nextScope)
      ((s.atDepth (s.depth + 1)).openScope
        ⟨.ofLists ["n"] [.ofResult true k], some s.root⟩)
      (.ok (.ofResult true sum)) t) :
    BigStep (peak + 1) (.value body scope) s
      (.ok (.ofResult true ((k + 1 : Nat) + sum)))
      (t.atDepth (t.depth - 1)) := by
  let below := s.atDepth (s.depth + 1)
  have hroomBelow : below.depth + 2 ≤ below.limit := hroom
  have hagain : below.forest.lookup scope "sum-to" =
      some (.closure id ["n"] body s.root) := hcall.itself (by decide)
  have hcounter : s.forest.lookup scope "n" =
      some (.ofResult true (k + 1 : Nat)) := hcall.parameter (by simp)
  obtain ⟨last, next, -, hgoes, hstep⟩ :=
    hcall.untilZero (by decide) (by omega) hcopy hcounter
  obtain ⟨operands, hcopies, hadded⟩ := BigStep.namedCall hgoes
    (by omega : s.depth < s.limit) (hcall.builtin (.arith .add) (by decide))
  obtain _ | ⟨hfirst, _ | ⟨hsecond, ⟨⟩⟩⟩ := hcopies
  obtain rfl := hfirst.eq_ref
  obtain ⟨operands, hcopies, hcalled⟩ :=
    BigStep.namedCall hsecond (Nat.lt_of_add_right_lt hroomBelow) hagain
  obtain _ | ⟨hoperand, ⟨⟩⟩ := hcopies
  have hless := BigStep.oneLess hoperand hroomBelow
    (hcall.builtin (.arith .sub) (by decide)) hcounter hhigh
  have hwaited := hcalled (.invocation (.cons hless .nil) (List.cons_ne_nil _ _)
    (by simp) hrest)
  have hresult := Value.add_of_nonneg (H := Empty) (fitsWord_of_lt hhigh)
    (Int.natCast_nonneg _) hlow
  have hsummed := hadded (.binary rfl rfl (.name (by omega) hcounter)
    (.deeper (by omega) hwaited) (Builtin.alone_arith hresult scope _))
  rw [if_neg (by omega)] at hstep
  have hlevels : max 2 (max 1 (max 1 (max 1 (max 2 peak) + 1))) = peak + 1 := by
    omega
  rw [← hlevels]
  exact hstep hsummed

theorem triangle_succ (k : Nat) :
    ((k + 1 : Nat) : Int) * ((k + 1 : Nat) + 1) / 2 =
      (k + 1 : Nat) + (k : Int) * (k + 1) / 2 := by
  have hexpand : ((k + 1 : Nat) : Int) * ((k + 1 : Nat) + 1) =
      (k : Int) * (k + 1) + (k + 1 : Nat) * 2 := by
    push_cast
    ring
  rw [hexpand, Int.add_mul_ediv_right _ _ (by decide), Int.add_comm]

/-- Every call of `sum-to` on the way to zero takes a level of its own. -/
theorem sumTo_loop (hcopy : body.CopyOf sumToLoop) (k : Nat)
    (hcall : s.InCall "sum-to" id ["n"] body scope [.ofResult true k])
    (hroom : s.depth + (k + 2) ≤ s.limit) (hhigh : (k : Int) < 2 ^ 63) :
    ∃ t, BigStep (k + 2) (.value body scope) s
      (.ok (.ofResult true (k * (k + 1) / 2))) t := by
  induction k generalizing s scope with
  | zero => exact ⟨s, sumTo_last hcopy hroom hcall⟩
  | succ k ih =>
      have hagain := Session.inCall_openScope hcall.equipped hcall.distinct
        [.ofResult true k] (by simp) (s.depth + 1)
      have hroomDeeper : s.depth + 1 + (k + 2) ≤ s.limit := by omega
      obtain ⟨t, hrest⟩ := ih hagain hroomDeeper (by omega)
      have hlow : 0 ≤ (k : Int) * (k + 1) / 2 := by positivity
      rw [triangle_succ]
      exact ⟨_, sumTo_round hcopy (by omega) (by omega) hhigh hlow hcall hrest⟩

/-- A call of `sum-to` at the top level takes three levels and one more for each
number on the way to zero. -/
theorem sumTo_call {n : Nat} {form : Value Empty} (hcopy : body.CopyOf sumToLoop)
    (hequipped : s.forest.Equipped s.root "sum-to"
      (.closure id ["n"] body s.root))
    (hasked : form.CopyOf (.numberCall "sum-to" [n]))
    (hroom : s.depth + (n + 3) ≤ s.limit) (hhigh : (n : Int) < 2 ^ 63) :
    ∃ t, BigStep (n + 3) (.evaluate form s.root) s
      (.ok (.ofResult true (n * (n + 1) / 2))) t := by
  have hfits : ∀ m ∈ [n], fitsWord m = true := by simp [fitsWord_of_lt hhigh]
  apply BigStep.topLevelCall hequipped (by decide) hfits (List.cons_ne_nil _ _)
    (by simp) hasked (by omega) (by omega)
  intro u scope hcall hdeeper hsameLimit
  exact sumTo_loop hcopy n hcall (by omega) hhigh

end SumTo

section Programs

/-- The text of a loop that counts one number down and another one up. -/
def countDownText : String :=
  "(define count-down (lambda (n acc) (if (= n 0) acc " ++
    "(count-down (- n 1) (+ acc 1)))))"

/-- The text of a recursion that adds up the numbers to zero. -/
def sumToText : String :=
  "(define sum-to (lambda (n) (if (= n 0) 0 (+ n (sum-to (- n 1))))))"

theorem countDown_written : (Datum.definition "count-down" ["n", "acc"]
    countDownLoop).WrittenAs countDownText :=
  Datum.writtenAs_of_read fun file => by cbv

theorem sumTo_written :
    (Datum.definition "sum-to" ["n"] sumToLoop).WrittenAs sumToText :=
  Datum.writtenAs_of_read fun file => by cbv

theorem countDown_call_written {n : Nat} (hhigh : (n : Int) < 2 ^ 63) :
    (Datum.numberCall "count-down" [n, 0]).WrittenAs
      ("(count-down " ++ toString n ++ " 0)") := by
  have hname : IsName "count-down" :=
    ⟨by decide, List.all_eq_true.1 (by decide), by decide, by decide⟩
  apply Datum.writtenAs_numberCall hname
  · exact countDown_fits hhigh
  · simp

theorem sumTo_call_written {n : Nat} (hhigh : (n : Int) < 2 ^ 63) :
    (Datum.numberCall "sum-to" [n]).WrittenAs
      ("(sum-to " ++ toString n ++ ")") := by
  have hname : IsName "sum-to" :=
    ⟨by decide, List.all_eq_true.1 (by decide), by decide, by decide⟩
  apply Datum.writtenAs_numberCall hname
  · simp [fitsWord_of_lt hhigh]
  · simp

end Programs

/-- Under every limit from three on, `count-down` counts any machine integer down
to zero. -/
theorem countDown_evaluates {limit n : Nat} (hroom : 3 ≤ limit)
    (hhigh : (n : Int) < 2 ^ 63) (sink : Sink) (recording : Bool)
    (file other : String) :
    ∃ s, SourceEvaluates countDownText file (.fresh limit sink recording)
        (.ok .nil) s ∧
      ∃ t, SourceEvaluates ("(count-down " ++ toString n ++ " 0)") other s
        (.ok (.int (Int64.ofInt n))) t := by
  obtain ⟨s, hdefined, id, inner, t, hsame, houtermost, rfl, hcopy, hequipped⟩ :=
    countDown_written.equips (by decide) (by decide) hroom sink recording file
  refine ⟨s, hdefined, ?_⟩
  have hwritten := countDown_call_written hhigh
  let start : Session Empty := { t with batches := t.batches + 1 }
  have hroomStart : start.depth + 3 ≤ start.limit := by
    have houtermostToo : start.depth = 0 := houtermost
    rw [houtermostToo, Nat.zero_add]
    exact hroom
  have hequippedStart : start.forest.Equipped start.root "count-down"
      (.closure id ["n", "acc"] inner t.root) := hequipped
  obtain ⟨u, hderived⟩ := countDown_call hcopy hequippedStart
    (Value.copyOf_ofDatum t.batches _) hroomStart hhigh
  obtain ⟨reply, v, hends, halike, -⟩ :=
    hwritten.evaluates other hsame (.of_bigStep hderived)
  rw [halike.eq_ok rfl] at hends
  exact ⟨v, hends⟩

/-- The limits under which `sum-to` adds up the numbers to zero are those from
the first of them plus three on. -/
theorem sumTo_evaluates {limit n : Nat} (hroom : 3 ≤ limit)
    (hhigh : (n : Int) < 2 ^ 63) (sink : Sink) (recording : Bool)
    (file other : String) :
    ∃ s, SourceEvaluates sumToText file (.fresh limit sink recording)
        (.ok .nil) s ∧
      (n + 3 ≤ limit →
        ∃ t, SourceEvaluates ("(sum-to " ++ toString n ++ ")") other s
          (.ok (.ofResult true (n * (n + 1) / 2))) t) ∧
      (limit < n + 3 →
        ∃ fault t, SourceEvaluates ("(sum-to " ++ toString n ++ ")") other s
          (.error fault) t ∧ fault.kind = .stackOverflow) := by
  obtain ⟨s, hdefined, id, inner, t, hsame, houtermost, rfl, hcopy, hequipped⟩ :=
    sumTo_written.equips (by decide) (by decide) hroom sink recording file
  refine ⟨s, hdefined, ?_⟩
  have hwritten := sumTo_call_written hhigh
  let start : Session Empty := { t with batches := t.batches + 1 }
  -- the peak is found where there is room enough, and then held against the limit
  let roomy := start.withLimit (n + 3)
  have hroomRoomy : roomy.depth + (n + 3) ≤ roomy.limit := by
    have houtermostToo : roomy.depth = 0 := houtermost
    rw [houtermostToo, Nat.zero_add]
    exact le_rfl
  have hequippedRoomy : roomy.forest.Equipped roomy.root "sum-to"
      (.closure id ["n"] inner t.root) := hequipped
  obtain ⟨u, hderived⟩ := sumTo_call hcopy hequippedRoomy
    (Value.copyOf_ofDatum t.batches _) hroomRoomy hhigh
  have houtermostStart : start.depth = 0 := houtermost
  constructor
  · intro henough
    have hends := evaluates_of_peak_le houtermostStart hderived
      (not_overflows_ok _) henough
    obtain ⟨reply, v, hends, halike, -⟩ := hwritten.evaluates other hsame hends
    rw [halike.eq_ok (Value.isPlain_ofResult _ _)] at hends
    exact ⟨_, hends⟩
  · intro hshort
    obtain ⟨fault, v, hends, hkind⟩ :=
      evaluates_overflow_of_lt_peak houtermostStart hderived
        (not_overflows_ok _) hshort
    obtain ⟨reply, w, hends, halike, -⟩ := hwritten.evaluates other hsame hends
    obtain ⟨trouble, rfl, hsameKind⟩ := halike.kind
    exact ⟨trouble, w, hends, hsameKind.symm.trans hkind⟩

/-- Tail recursion needs constant depth, and other recursion one level a call.
Under every limit from three on, a fresh session that is given `count-down`
counts any machine integer down to zero.  One that is given `sum-to` adds up the
numbers from any machine integer down if the limit is that integer plus three or
more, and fails with a stack overflow under every smaller limit. -/
theorem recursion_depth (limit n : Nat) (hroom : 3 ≤ limit)
    (hword : n ≤ 2 ^ 63 - 1) (sink : Sink) (recording : Bool)
    (file other : String) :
    (∃ s, SourceEvaluates countDownText file (.fresh limit sink recording)
        (.ok .nil) s ∧
      ∃ t, SourceEvaluates ("(count-down " ++ toString n ++ " 0)") other s
        (.ok (.int (Int64.ofInt n))) t) ∧
    ∃ s, SourceEvaluates sumToText file (.fresh limit sink recording)
        (.ok .nil) s ∧
      (n + 3 ≤ limit →
        ∃ t, SourceEvaluates ("(sum-to " ++ toString n ++ ")") other s
          (.ok (.ofResult true (n * (n + 1) / 2))) t) ∧
      (limit < n + 3 →
        ∃ fault t, SourceEvaluates ("(sum-to " ++ toString n ++ ")") other s
          (.error fault) t ∧ fault.kind = .stackOverflow) := by
  have hhigh : (n : Int) < 2 ^ 63 := by omega
  constructor
  · exact countDown_evaluates hroom hhigh sink recording file other
  · exact sumTo_evaluates hroom hhigh sink recording file other

/-- With a limit of six there is room for the sum up to three and not for the sum
up to four. -/
theorem recursion_depth_six :
    (∃ s, SourceEvaluates sumToText "page" (.fresh 6 {} false) (.ok .nil) s ∧
      ∃ t, SourceEvaluates "(sum-to 3)" "line" s (.ok (.int 6)) t) ∧
    ∃ s, SourceEvaluates sumToText "page" (.fresh 6 {} false) (.ok .nil) s ∧
      ∃ fault t, SourceEvaluates "(sum-to 4)" "line" s (.error fault) t ∧
        fault.kind = .stackOverflow := by
  obtain ⟨-, s, hdefined, henough, -⟩ :=
    recursion_depth 6 3 (by decide) (by decide) {} false "page" "line"
  obtain ⟨-, u, hdefinedToo, -, hshort⟩ :=
    recursion_depth 6 4 (by decide) (by decide) {} false "page" "line"
  exact ⟨⟨s, hdefined, henough (by decide)⟩, u, hdefinedToo, hshort (by decide)⟩

end Lisp
