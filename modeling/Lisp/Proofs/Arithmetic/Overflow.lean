import Lisp.Number.Basic
import Mathlib.Algebra.Ring.Int.Defs

/-!
Machine arithmetic.  An operator on words wraps around, and a flag says whether
it did.  Where the flag is not set the wrapped result is the exact one, and it
is set just where the exact one fits in no word.  Division towards zero is
corrected to the floor, and overflows for one pair of operands only.
-/

namespace Lisp

theorem fitsWord_iff (n : Int) :
    fitsWord n = true ↔ -2 ^ 63 ≤ n ∧ n ≤ 2 ^ 63 - 1 := by
  simp only [fitsWord, Bool.and_eq_true, decide_eq_true_eq]
  omega

/-- Out of the range of a word, as overflow flags put it. -/
theorem not_fitsWord (r : Int) :
    (!fitsWord r) = (decide (r ≥ 2 ^ (64 - 1)) || decide (r < -2 ^ (64 - 1))) := by
  rw [Bool.eq_iff_iff]
  simp only [fitsWord, Bool.not_eq_true', Bool.and_eq_false_iff,
    Bool.or_eq_true, decide_eq_true_eq, decide_eq_false_iff_not]
  omega

/-- A checked result is exact, and there is none just where the exact one fits
in no word. -/
theorem Word.checked_eq {overflowed : Bool} {result : Int64} {r : Int}
    (hflag : overflowed = !fitsWord r)
    (hresult : fitsWord r = true → result.toInt = r) :
    Word.checked overflowed result =
      if fitsWord r then some (Int64.ofInt r) else none := by
  rw [Word.checked, hflag]
  cases hfits : fitsWord r with
  | true =>
      have hsame : result = Int64.ofInt r := by
        rw [← hresult hfits, Int64.ofInt_toInt]
      rw [hsame]
      rfl
  | false => rfl

/-- The quotient to the floor is the quotient towards zero, less one where a
remainder is left and the quotient is negative. -/
theorem fdiv_eq_tdiv_sub (m n : Int) :
    m.fdiv n =
      if (0 < m.tmod n ∧ n < 0) ∨ (m.tmod n < 0 ∧ 0 < n) then m.tdiv n - 1
      else m.tdiv n := by
  have hdvd : n ∣ m ↔ m.tmod n = 0 := Int.dvd_iff_tmod_eq_zero
  have hpos : 0 ≤ m → 0 ≤ m.tmod n := Int.tmod_nonneg n
  have hneg : m < 0 → m.tmod n ≤ 0 := by
    intro hm
    have hflip := Int.tmod_nonneg n (a := -m) (by omega)
    rw [Int.neg_tmod] at hflip
    omega
  rw [Int.fdiv_eq_tdiv]
  rcases Int.lt_trichotomy n 0 with hn | rfl | hn
  · have hsign := Int.sign_eq_neg_one_of_neg hn
    split_ifs <;> omega
  · simp
  · have hsign := Int.sign_eq_one_of_pos hn
    split_ifs <;> omega

/-- The machine quotient is the quotient towards zero, but for the one that fits
in no word. -/
theorem Word.toInt_div {a b : Int64} (hsafe : ¬ (a = Int64.minValue ∧ b = -1)) :
    (a / b).toInt = a.toInt.tdiv b.toInt := by
  by_cases hleast : a = Int64.minValue
  · exact Int64.toInt_div_of_ne_right a b fun hflip => hsafe ⟨hleast, hflip⟩
  · exact Int64.toInt_div_of_ne_left a b hleast

/-- All other quotients to the floor fit. -/
theorem Word.fitsWord_fdiv {a b : Int64}
    (hsafe : ¬ (a = Int64.minValue ∧ b = -1)) :
    fitsWord (a.toInt.fdiv b.toInt) = true := by
  have hquotient := Word.toInt_div hsafe
  have hrounded := fdiv_eq_tdiv_sub a.toInt b.toInt
  have hsmaller := Int.natAbs_fdiv_le_natAbs a.toInt b.toInt
  have hlow := a.le_toInt
  have hhigh := a.toInt_lt
  have hbelow := (a / b).toInt_lt
  rw [fitsWord_iff]
  split_ifs at hrounded <;> omega

/-- Division overflows just where the quotient fits in no word. -/
theorem Word.div_overflows (a b : Int64) :
    decide (a = Int64.minValue ∧ b = -1) =
      !fitsWord (a.toInt.fdiv b.toInt) := by
  by_cases hsafe : a = Int64.minValue ∧ b = -1
  · obtain ⟨rfl, rfl⟩ := hsafe
    decide
  · rw [Word.fitsWord_fdiv hsafe, decide_eq_false hsafe]
    rfl

/-- The machine quotient is corrected to the floor without overflowing again. -/
theorem Word.toInt_floorDiv {a b : Int64}
    (hsafe : ¬ (a = Int64.minValue ∧ b = -1)) :
    (Word.floorDiv a b).toInt = a.toInt.fdiv b.toInt := by
  have hquotient := Word.toInt_div hsafe
  have hrounded := fdiv_eq_tdiv_sub a.toInt b.toInt
  simp only [Word.floorDiv, Int64.lt_iff_toInt_lt, Int64.toInt_mod,
    Int64.toInt_zero]
  split_ifs at hrounded ⊢
  · have hfits := Word.fitsWord_fdiv hsafe
    rw [fitsWord_iff] at hfits
    rw [Int64.toInt_sub, hquotient, Int64.toInt_one, ← hrounded]
    exact Int.bmod_eq_of_le (by omega) (by omega)
  · rw [hquotient, hrounded]

/-- Machine arithmetic has the exact result where that fits in a word, and no
result elsewhere. -/
theorem Number.wordOp_eq (op : ArithOp) (a b : Int64) :
    Number.wordOp op a b =
      (Number.integerOp op a.toInt b.toInt).map fun r =>
        if fitsWord r then some (Int64.ofInt r) else none := by
  -- a flag that is not set says that the wrapped result is the exact one
  have hunset : ∀ {overflowed : Bool} {r : Int}, overflowed = !fitsWord r →
      fitsWord r = true → ¬ overflowed = true := by
    rintro _ r rfl hfits
    simp [hfits]
  cases op with
  | add =>
      have hflag := (not_fitsWord (a.toInt + b.toInt)).symm
      refine congrArg Except.ok (Word.checked_eq hflag fun hfits => ?_)
      exact BitVec.toInt_add_of_not_saddOverflow (hunset hflag hfits)
  | sub =>
      have hflag := (not_fitsWord (a.toInt - b.toInt)).symm
      refine congrArg Except.ok (Word.checked_eq hflag fun hfits => ?_)
      exact BitVec.toInt_sub_of_not_ssubOverflow (hunset hflag hfits)
  | mul =>
      have hflag := (not_fitsWord (a.toInt * b.toInt)).symm
      refine congrArg Except.ok (Word.checked_eq hflag fun hfits => ?_)
      exact BitVec.toInt_mul_of_not_smulOverflow (hunset hflag hfits)
  | div =>
      by_cases hzero : b = 0
      · subst hzero
        rfl
      · have hdivisor : b.toInt ≠ 0 := fun hb => hzero (Int64.toInt_inj.mp hb)
        rw [Number.wordOp, Number.integerOp, if_neg hzero, if_neg hdivisor]
        have hflag := Word.div_overflows a b
        refine congrArg Except.ok (Word.checked_eq hflag fun hfits => ?_)
        refine Word.toInt_floorDiv fun hleast => ?_
        exact hunset hflag hfits (decide_eq_true hleast)

/-- The narrowest number for an integer: a machine integer if it fits. -/
def Number.ofInt (n : Int) : Number :=
  if fitsWord n then .int (Int64.ofInt n) else .big n

/-- Machine arithmetic that falls back on big integers where it overflows comes
to the exact result, as narrow as it can be. -/
theorem Number.widenOp_eq (op : ArithOp) (a b : Int64) :
    Number.widenOp op a b =
      (Number.integerOp op a.toInt b.toInt).map Number.ofInt := by
  rw [Number.widenOp, Number.wordOp_eq]
  cases Number.integerOp op a.toInt b.toInt with
  | error cause => rfl
  | ok r =>
      cases hfits : fitsWord r <;> simp [Except.map, Number.ofInt, hfits]

end Lisp
