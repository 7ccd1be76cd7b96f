import Lisp.Evaluator.Procedure
import Lisp.Proofs.Equality.Data

/-!
Comparison.  Integers are ordered as integers, whether they are machine integers
or big ones; the sign of the difference tells the same order, and equality holds
where neither comes first.  Numbers of any kind that change places are ordered
the other way round, so a comparison and its converse always agree.
-/

namespace Lisp

variable {H : Type}

/-- The comparison that says the same with its operands the other way round. -/
def Comparison.converse : Comparison → Comparison
  | .lt => .gt
  | .gt => .lt
  | .le => .ge
  | .ge => .le
  | .eq => .eq

/-- A comparison holds of an order just where its converse holds of the reverse;
neither holds where there is no order. -/
theorem Comparison.holds_converse (test : Comparison) (order : Option Ordering) :
    test.converse.holds (order.map Ordering.swap) = test.holds order := by
  cases order with
  | none => cases test <;> rfl
  | some order => cases test <;> cases order <;> rfl

section Numbers

variable {a b : Value H} {x y : Number}

theorem Value.order_of_numbers (ha : a.number? = some x)
    (hb : b.number? = some y) : a.order b = .ok (x.order y) := by
  simp only [Value.order, ha, hb]

/-- Values that are numbers and change places are ordered the other way round. -/
theorem Value.order_swap (ha : a.number? = some x) (hb : b.number? = some y) :
    b.order a = (a.order b).map (Option.map Ordering.swap) := by
  rw [order_of_numbers ha hb, order_of_numbers hb ha, Number.order_swap x y]
  rfl

/-- A comparison of two numbers does what its converse does when they change
places. -/
theorem Builtin.call_compare_converse (test : Comparison)
    (ha : a.number? = some x) (hb : b.number? = some y)
    (evaluator : Evaluator H) (scope : ScopeId) :
    (Builtin.compare test.converse).call evaluator [b, a] scope =
      (Builtin.compare test).call evaluator [a, b] scope := by
  simp only [Builtin.call, Value.order_of_numbers ha hb,
    Value.order_of_numbers hb ha, Number.order_swap x y]
  have hagree := test.holds_converse (x.order y)
  exact congrArg (fun verdict => (pure (.done (.bool verdict)) : Eval H (Turn H)))
    hagree

end Numbers

section Integers

variable {a b : Value H} {m n : Int}

theorem Value.isPair_of_integer (ha : a.integer? = some m) : a.isPair = false := by
  cases a with
  | pair => cases ha
  | _ => rfl

theorem Value.equal_of_integers (ha : a.integer? = some m)
    (hb : b.integer? = some n) : a.equal b = .ok (decide (m = n)) := by
  have hapart : (a.isPair && b.isPair) = false := by
    rw [isPair_of_integer ha, Bool.false_and]
  rw [equal_eq_equalAt, equalAt_of_apart hapart,
    settle_of_atoms (isPair_of_integer ha) (isPair_of_integer hb),
    equalAtom_of_integers ha hb]

/-- The difference of two integers, whatever their kinds. -/
theorem Value.sub_of_integers (ha : a.integer? = some m)
    (hb : b.integer? = some n) :
    ∃ v, a.arithmetic .sub b = .ok v ∧ v.integer? = some (m - n) := by
  have hresult := Value.arithmetic_of_integers .sub ha hb
  rw [if_neg (by simp)] at hresult
  exact ⟨_, hresult, Value.integer?_ofResult _ _⟩

end Integers

/-- Integers of both kinds are ordered as the integers they denote.  Their order
is the sign of their difference, which is always an integer, and they are equal
where neither comes first.  Two numbers of any kinds are ordered the other way
round when they change places, or have no order either way; so a comparison and
its converse come to the same. -/
theorem comparison_consistent (a b : Value H) :
    (∀ m n, a.integer? = some m → b.integer? = some n →
      a.order b = .ok (some (compare m n)) ∧
      (∃ v d, a.arithmetic .sub b = .ok v ∧ v.integer? = some d ∧
        (a.order b = .ok (some .lt) ↔ d < 0) ∧
        (a.order b = .ok (some .eq) ↔ d = 0) ∧
        (a.order b = .ok (some .gt) ↔ 0 < d)) ∧
      (a.equal b = .ok true ↔ a.order b = .ok (some .eq))) ∧
    (∀ x y, a.number? = some x → b.number? = some y →
      (∃ order, a.order b = .ok order ∧
        b.order a = .ok (order.map Ordering.swap) ∧
        (∀ test : Comparison,
          test.converse.holds (order.map Ordering.swap) = test.holds order)) ∧
      ∀ (test : Comparison) (evaluator : Evaluator H) (scope : ScopeId),
        (Builtin.compare test.converse).call evaluator [b, a] scope =
          (Builtin.compare test).call evaluator [a, b] scope) := by
  constructor
  · intro m n ha hb
    have horder := Value.order_of_integers ha hb
    obtain ⟨v, hsub, hdenotes⟩ := Value.sub_of_integers ha hb
    refine ⟨horder, ⟨v, m - n, hsub, hdenotes, ?_, ?_, ?_⟩, ?_⟩
    · rw [horder, Except.ok.injEq, Option.some.injEq, compare_lt_iff_lt]
      omega
    · rw [horder, Except.ok.injEq, Option.some.injEq, compare_eq_iff_eq]
      omega
    · rw [horder, Except.ok.injEq, Option.some.injEq, compare_gt_iff_gt]
      omega
    · rw [Value.equal_of_integers ha hb, horder, Except.ok.injEq,
        decide_eq_true_iff, Except.ok.injEq, Option.some.injEq,
        compare_eq_iff_eq]
  · intro x y ha hb
    constructor
    · have horder := Value.order_of_numbers ha hb
      refine ⟨x.order y, horder, ?_, fun test => test.holds_converse _⟩
      rw [Value.order_swap ha hb, horder]
      rfl
    · intro test evaluator scope
      exact Builtin.call_compare_converse test ha hb evaluator scope

/-- The least machine integer and a small big integer, whose difference fits in
no word; and a double that has no order with a big integer. -/
theorem comparison_consistent_across_kinds :
    (∃ v d, (Value.int Int64.minValue : Value Empty).arithmetic .sub (.big 1) =
        .ok v ∧ v.integer? = some d ∧ d < 0) ∧
    ∀ (evaluator : Evaluator Empty) (scope : ScopeId),
      (Builtin.compare .ge).call evaluator [.big 1, .float (0.0 / 0.0)] scope =
        (Builtin.compare .le).call evaluator [.float (0.0 / 0.0), .big 1]
          scope := by
  constructor
  · obtain ⟨hintegers, -⟩ :=
      comparison_consistent (.int Int64.minValue : Value Empty) (.big 1)
    obtain ⟨horder, ⟨v, d, hsub, hdenotes, hless, -, -⟩, -⟩ :=
      hintegers (-2 ^ 63) 1 rfl rfl
    refine ⟨v, d, hsub, hdenotes, hless.mp ?_⟩
    rw [horder]
    decide
  · obtain ⟨-, hnumbers⟩ :=
      comparison_consistent (.float (0.0 / 0.0) : Value Empty) (.big 1)
    obtain ⟨-, hagree⟩ := hnumbers _ _ rfl rfl
    exact hagree .le

end Lisp
