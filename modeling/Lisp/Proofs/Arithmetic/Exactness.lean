import Lisp.Proofs.Arithmetic.Overflow
import Lisp.Value.Numeric
import Mathlib.Data.Rat.Floor

/-!
Integer arithmetic is exact.  A machine integer and a big integer are two ways
to write down an integer, and an operator gives the integer it should whichever
way its operands are written: the quotient is the floor of the rational
quotient, and only division by zero fails.  The result is a machine integer just
where both operands are and it fits in a word.
-/

namespace Lisp

variable {H : Type}

/-- The integer that a value of either integer kind denotes. -/
def Value.integer? : Value H → Option Int
  | .int n => some n.toInt
  | .big n => some n
  | _ => none

/-- Whether a value is a machine integer. -/
def Value.isWord : Value H → Bool
  | .int _ => true
  | _ => false

/-- Whether a value is a big integer. -/
def Value.isBig : Value H → Bool
  | .big _ => true
  | _ => false

/-- What an operator comes to on integers. -/
def ArithOp.exact (op : ArithOp) (m n : Int) : Int :=
  match op with
  | .add => m + n
  | .sub => m - n
  | .mul => m * n
  | .div => ⌊(m : ℚ) / (n : ℚ)⌋

theorem fdiv_natCast_eq_floor (m : Int) (n : Nat) :
    m.fdiv n = ⌊(m : ℚ) / (n : ℚ)⌋ := by
  rw [Int.fdiv_eq_ediv_of_nonneg m (Int.natCast_nonneg n),
    Rat.floor_intCast_div_natCast]

/-- Division to the floor is the floor of the rational quotient, whatever the
signs. -/
theorem fdiv_eq_floor (m n : Int) : m.fdiv n = ⌊(m : ℚ) / (n : ℚ)⌋ := by
  rcases Int.eq_nat_or_neg n with ⟨k, rfl | rfl⟩
  · simpa using fdiv_natCast_eq_floor m k
  · -- a minus below the line may as well stand above it
    have hflip : m.fdiv (-(k : Int)) = (-m).fdiv k := by
      rw [← Int.neg_fdiv_neg, Int.neg_neg]
    rw [hflip, fdiv_natCast_eq_floor]
    push_cast
    rw [neg_div, div_neg]

/-- An operator on integers fails on a zero divisor only, and is exact
otherwise. -/
theorem Number.integerOp_eq (op : ArithOp) (m n : Int) :
    Number.integerOp op m n =
      if op = .div ∧ n = 0 then .error .divisionByZero
      else .ok (op.exact m n) := by
  cases op with
  | div =>
      simp only [Number.integerOp, true_and, ArithOp.exact, fdiv_eq_floor]
  | _ => rfl

/-- The value an integer result is given as: a machine integer if it may be one
and fits, and a big integer otherwise. -/
def Value.ofResult (mayNarrow : Bool) (r : Int) : Value H :=
  if mayNarrow && fitsWord r then .int (Int64.ofInt r) else .big r

@[simp] theorem Value.integer?_ofResult (mayNarrow : Bool) (r : Int) :
    (Value.ofResult mayNarrow r : Value H).integer? = some r := by
  unfold Value.ofResult
  split
  · next hword =>
      have hfits : fitsWord r = true := (Bool.and_eq_true_iff.mp hword).2
      rw [Value.integer?, toInt_ofInt_of_fitsWord hfits]
  · rfl

@[simp] theorem Value.isWord_ofResult (mayNarrow : Bool) (r : Int) :
    (Value.ofResult mayNarrow r : Value H).isWord = (mayNarrow && fitsWord r) := by
  unfold Value.ofResult
  split
  · next hword => exact hword.symm
  · next hword => exact (Bool.eq_false_iff.mpr hword).symm

/-- A value that denotes an integer is of exactly one of the two kinds. -/
theorem Value.isBig_eq_not_isWord {v : Value H} {n : Int}
    (hv : v.integer? = some n) : v.isBig = !v.isWord := by
  cases v with
  | int | big => rfl
  | _ => cases hv

theorem Value.ofNumber_ofInt (r : Int) :
    (Value.ofNumber (Number.ofInt r) : Value H) = .ofResult true r := by
  simp only [Number.ofInt, Value.ofResult, Bool.true_and]
  split <;> rfl

theorem Value.map_integerOp (op : ArithOp) (m n : Int) {kind : Int → Number}
    {mayNarrow : Bool}
    (hkind : ∀ r, (Value.ofNumber (kind r) : Value H) = .ofResult mayNarrow r) :
    ((Number.integerOp op m n).map kind).map (Value.ofNumber : _ → Value H) =
      if op = .div ∧ n = 0 then .error .divisionByZero
      else .ok (.ofResult mayNarrow (op.exact m n)) := by
  rw [Number.integerOp_eq]
  split
  · rfl
  · exact congrArg Except.ok (hkind _)

/-- Arithmetic on values that denote integers, whatever their kinds. -/
theorem Value.arithmetic_of_integers (op : ArithOp) {a b : Value H} {m n : Int}
    (ha : a.integer? = some m) (hb : b.integer? = some n) :
    a.arithmetic op b =
      if op = .div ∧ n = 0 then .error .divisionByZero
      else .ok (.ofResult (a.isWord && b.isWord) (op.exact m n)) := by
  cases a with
  | int x =>
      obtain rfl := Option.some.inj ha
      cases b with
      | int y =>
          obtain rfl := Option.some.inj hb
          have hwidened := congrArg (Except.map (Value.ofNumber : _ → Value H))
            (Number.widenOp_eq op x y)
          exact hwidened.trans (Value.map_integerOp op _ _ Value.ofNumber_ofInt)
      | big y =>
          obtain rfl := Option.some.inj hb
          exact Value.map_integerOp op _ _ fun _ => rfl
      | _ => cases hb
  | big x =>
      obtain rfl := Option.some.inj ha
      cases b with
      | int y =>
          obtain rfl := Option.some.inj hb
          exact Value.map_integerOp op _ _ fun _ => rfl
      | big y =>
          obtain rfl := Option.some.inj hb
          exact Value.map_integerOp op _ _ fun _ => rfl
      | _ => cases hb
  | _ => cases ha

/-- The order of values that denote integers is that of the integers, whatever
their kinds. -/
theorem Value.order_of_integers {a b : Value H} {m n : Int}
    (ha : a.integer? = some m) (hb : b.integer? = some n) :
    a.order b = .ok (some (compare m n)) := by
  cases a with
  | int | big =>
      obtain rfl := Option.some.inj ha
      cases b with
      | int | big =>
          obtain rfl := Option.some.inj hb
          rfl
      | _ => cases hb
  | _ => cases ha

theorem Value.ofResult_of_fits {r : Int} (hfits : fitsWord r = true) :
    (Value.ofResult true r : Value H) = .int (Int64.ofInt r) := by
  simp only [Value.ofResult, hfits, Bool.and_self, if_true]

/-- Arithmetic on two machine integers. -/
theorem Value.arithmetic_of_fits (op : ArithOp) {m n : Int} (htotal : op ≠ .div)
    (hm : fitsWord m = true) (hn : fitsWord n = true) :
    (Value.ofResult true m : Value H).arithmetic op (.ofResult true n) =
      .ok (.ofResult true (op.exact m n)) := by
  rw [Value.arithmetic_of_integers op (Value.integer?_ofResult true m)
    (Value.integer?_ofResult true n)]
  simp only [Value.isWord_ofResult, hm, hn, htotal, false_and, if_false,
    Bool.and_self]

/-- A sum that does not fit in a word still does not when more is added. -/
theorem Value.add_of_nonneg {m n : Int} (hfits : fitsWord m = true)
    (hm : 0 ≤ m) (hn : 0 ≤ n) :
    (Value.ofResult true m : Value H).arithmetic .add (.ofResult true n) =
      .ok (.ofResult true (m + n)) := by
  cases hword : fitsWord n with
  | true => exact Value.arithmetic_of_fits .add (by decide) hfits hword
  | false =>
      have hbig : fitsWord (m + n) = false := by
        rw [Bool.eq_false_iff, Ne, fitsWord_iff] at hword ⊢
        omega
      rw [Value.arithmetic_of_integers .add (Value.integer?_ofResult true m)
        (Value.integer?_ofResult true n)]
      simp only [Value.isWord_ofResult, hfits, hword, Bool.and_false]
      rw [Value.ofResult, Value.ofResult, ArithOp.exact, hbig]
      rfl

/-- Arithmetic is exact on integers of both kinds.  It fails just for a zero
divisor; otherwise the result denotes the integer it should, and it is a machine
integer exactly where both operands are machine integers and it fits in a word,
a big integer everywhere else. -/
theorem arithmetic_exact (op : ArithOp) (a b : Value H) (m n : Int)
    (ha : a.integer? = some m) (hb : b.integer? = some n) :
    (∀ cause, a.arithmetic op b = .error cause ↔
      op = .div ∧ n = 0 ∧ cause = .divisionByZero) ∧
    (¬ (op = .div ∧ n = 0) →
      ∃ v, a.arithmetic op b = .ok v ∧
        v.integer? = some (op.exact m n) ∧
        (v.isWord = true ↔ a.isWord = true ∧ b.isWord = true ∧
          -2 ^ 63 ≤ op.exact m n ∧ op.exact m n ≤ 2 ^ 63 - 1) ∧
        (v.isBig = true ↔ v.isWord = false)) := by
  have hresult := Value.arithmetic_of_integers op ha hb
  constructor
  · intro cause
    rw [hresult]
    split
    · next hzero =>
        obtain ⟨hdiv, hn⟩ := hzero
        simp only [Except.error.injEq, hdiv, hn, true_and, eq_comm]
    · next hzero =>
        refine iff_of_false (by simp) ?_
        rintro ⟨hdiv, hn, -⟩
        exact hzero ⟨hdiv, hn⟩
  · intro hzero
    refine ⟨_, hresult.trans (if_neg hzero), by simp, ?_, ?_⟩
    · rw [Value.isWord_ofResult, Bool.and_eq_true, Bool.and_eq_true,
        fitsWord_iff, and_assoc]
    · rw [Value.isBig_eq_not_isWord (Value.integer?_ofResult _ _),
        Bool.not_eq_true']

/-- The least machine integer divided by minus one does not fit in a word. -/
theorem arithmetic_exact_least_by_minus_one :
    ∃ v : Value Empty,
      (Value.int Int64.minValue).arithmetic .div (.int (-1)) = .ok v ∧
        v.integer? = some (2 ^ 63) ∧ v.isBig = true := by
  have hquotient : ArithOp.div.exact (-2 ^ 63) (-1) = 2 ^ 63 := by
    rw [ArithOp.exact, ← fdiv_eq_floor]
    decide
  obtain ⟨-, hexact⟩ := arithmetic_exact .div
    (.int Int64.minValue : Value Empty) (.int (-1)) (-2 ^ 63) (-1) rfl rfl
  obtain ⟨v, hv, hdenotes, hword, hbig⟩ := hexact (by decide)
  rw [hquotient] at hdenotes hword
  refine ⟨v, hv, hdenotes, hbig.mpr (Bool.eq_false_iff.mpr ?_)⟩
  intro hv
  obtain ⟨-, -, -, hfits⟩ := hword.mp hv
  exact absurd hfits (by decide)

end Lisp
