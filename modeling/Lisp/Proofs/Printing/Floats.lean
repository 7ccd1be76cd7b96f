import Lisp.Proofs.Arithmetic.Bits
import Lisp.Proofs.Arithmetic.Rounding
import Lisp.Proofs.Reading.Numerals
import Lisp.Proofs.Reading.Literal
import Lisp.Value.Printer

/-!
The text of a float.  Wherever the point is put and whichever zeros are added, the
text spells the digits that were found, with their exponent; so it is no integer,
and a finite float is read back from its text bit by bit.
-/

namespace Lisp

open Binary64

section Zeros

theorem decimalNumber_append_zeros (digits : List Char) (k : Nat) :
    decimalNumber (digits ++ List.replicate k '0') = decimalNumber digits * 10 ^ k := by
  change Nat.ofDigitChars 10 (digits ++ List.replicate k '0') 0 =
    Nat.ofDigitChars 10 digits 0 * 10 ^ k
  rw [Nat.ofDigitChars_append, Nat.ofDigitChars_replicate_zero, Nat.mul_comm]

/-- The digits of a positive number do not begin with a zero. -/
theorem head?_toDigits_ne_zero {n : Nat} (hn : 0 < n) :
    (Nat.toDigits 10 n).head? ≠ some '0' := by
  induction n using Nat.strongRecOn with
  | ind n ih =>
      rw [Nat.toDigits_eq_if (by decide)]
      split
      · next hsmall =>
          have hdigits : ∀ d < 10, 0 < d → Nat.digitChar d ≠ '0' := by decide
          rw [List.head?_singleton, ne_eq, Option.some.injEq]
          exact hdigits n hsmall hn
      · next hlarge =>
          rw [List.head?_append_of_ne_nil _ Nat.toDigits_ne_nil]
          exact ih (n / 10) (by omega) (by omega)

/-- What is dropped is zeros at the end. -/
theorem FloatFormat.exists_zeros (digits : List Char) :
    ∃ k, digits = significant digits ++ List.replicate k '0' := by
  have hzeros : digits.reverse.takeWhile (· == '0') =
      List.replicate (digits.reverse.takeWhile (· == '0')).length '0' := by
    refine List.eq_replicate_iff.mpr ⟨rfl, fun c hc => ?_⟩
    simpa using List.mem_takeWhile_imp hc
  have hsplit : digits = (digits.reverse.dropWhile (· == '0')).reverse ++
      List.replicate (digits.reverse.takeWhile (· == '0')).length '0' := by
    rw [← List.reverse_replicate, ← hzeros, ← List.reverse_append,
      List.takeWhile_append_dropWhile, List.reverse_reverse]
  unfold significant
  split
  · next hnone =>
      rw [hnone, List.nil_append] at hsplit
      generalize (digits.reverse.takeWhile (· == '0')).length = n at hsplit
      refine ⟨n - 1, ?_⟩
      rw [hsplit, List.take_replicate, List.replicate_append_replicate]
      congr 1
      omega
  · exact ⟨_, hsplit⟩

theorem FloatFormat.significant_ne_nil {digits : List Char} (hne : digits ≠ []) :
    significant digits ≠ [] := by
  unfold significant
  split
  · simpa using hne
  · next hsome => exact hsome

end Zeros

/-- The texts that spell a float by the given digits, which do not begin with a
zero, and the exponent of the last of them.  Zeros may stand around the digits. -/
inductive FloatText (digits : List Char) (places : Int) : List Char → Prop where
  | intro {significand exponent whole fraction : List Char} {n : Int} {k : Nat}
      (hsignificand : IsSignificand significand whole fraction)
      (hexponent : IsExponent exponent n)
      (hdigits : (whole ++ fraction).dropWhile (· == '0') =
        digits ++ List.replicate k '0')
      (hplaces : n - fraction.length + k = places)
      (hmarked : ∃ c ∈ significand ++ exponent, c.isDigit = false) :
      FloatText digits places (significand ++ exponent)

namespace FloatText

variable {digits text sign : List Char} {places : Int} {negative : Bool}

theorem integer? (htext : FloatText digits places text)
    (hsign : IsSign sign negative) : integer? (sign ++ text) = none := by
  cases htext with
  | @intro significand exponent _ _ _ _ hsignificand _ _ _ hmarked =>
      obtain ⟨c, hmem, hc⟩ := hmarked
      have hmixed : ¬ (significand ++ exponent).all Char.isDigit = true := by
        intro hall
        rw [List.all_eq_true.mp hall c hmem] at hc
        cases hc
      rw [Lisp.integer?, splitSign_append hsign (hsignificand.unsigned exponent)]
      exact if_neg fun h => hmixed h.2

theorem float? (htext : FloatText digits places text)
    (hsign : IsSign sign negative) :
    float? (sign ++ text) = some (ofMagnitude negative
      (ofDecimal (decimalNumber digits) digits.length places)) := by
  cases htext with
  | @intro _ _ _ fraction n k hsignificand hexponent hdigits hplaces _ =>
      have hshift : n - fraction.length = places - k := by omega
      rw [float?_spelled hsign hsignificand hexponent]
      simp only [hdigits, decimalNumber_append_zeros, List.length_append,
        List.length_replicate, hshift, ofDecimal_append_zeros]

end FloatText

theorem denotesInteger_toString (n : Int) :
    DenotesInteger (toString n).toList n :=
  (integer?_eq_some_iff _ n).mp (integer?_toString n)

section Layout

theorem isDigits_zero : IsDigits ['0'] :=
  ⟨List.cons_ne_nil _ _, by simp⟩

variable {digits : List Char} (hdigits : IsDigits digits)
  (hhead : digits.head? ≠ some '0')

include hdigits

theorem isDigits_zeros_after (k : Nat) : IsDigits (digits ++ List.replicate k '0') := by
  refine ⟨fun h => hdigits.1 (List.append_eq_nil_iff.mp h).1, fun c hc => ?_⟩
  rcases List.mem_append.mp hc with hc | hc
  · exact hdigits.2 c hc
  · rw [List.eq_of_mem_replicate hc]
    decide

theorem isDigits_zeros_before (k : Nat) : IsDigits (List.replicate k '0' ++ digits) := by
  refine ⟨fun h => hdigits.1 (List.append_eq_nil_iff.mp h).2, fun c hc => ?_⟩
  rcases List.mem_append.mp hc with hc | hc
  · rw [List.eq_of_mem_replicate hc]
    decide
  · exact hdigits.2 c hc

/-- Digits with a point after some of them. -/
theorem isSignificand_pointAfter {count : Nat} (hcount : 0 < count) :
    IsSignificand (digits.take count ++ '.' :: digits.drop count)
      (digits.take count) (digits.drop count) := by
  obtain ⟨hne, hall⟩ := hdigits
  refine .point ⟨?_, fun c hc => hall c (List.mem_of_mem_take hc)⟩
    fun c hc => hall c (List.mem_of_mem_drop hc)
  rw [ne_eq, List.take_eq_nil_iff]
  exact not_or.mpr ⟨hcount.ne', hne⟩

include hhead

theorem dropWhile_zeros (rest : List Char) :
    (digits ++ rest).dropWhile (· == '0') = digits ++ rest := by
  obtain ⟨c, more, rfl⟩ := List.exists_cons_of_ne_nil hdigits.1
  have hc : c ≠ '0' := fun h => hhead (congrArg some h)
  simp [hc]

theorem dropWhile_take_drop (count : Nat) :
    (digits.take count ++ digits.drop count).dropWhile (· == '0') =
      digits ++ List.replicate 0 '0' := by
  rw [List.take_append_drop]
  simpa using dropWhile_zeros hdigits hhead []

/-- One digit and an exponent. -/
theorem floatText_digit (hlength : digits.length ≤ 1) (n : Int) :
    FloatText digits (n - digits.length + 1) (digits ++ 'e' :: (toString n).toList) := by
  have hpos : 0 < digits.length := List.length_pos_iff.mpr hdigits.1
  refine .intro (k := 0) (.whole hdigits)
    (.present (by decide) (denotesInteger_toString n)) ?_ ?_ ⟨'e', by simp, rfl⟩
  · exact dropWhile_zeros hdigits hhead []
  · rw [List.length_nil]
    omega

/-- One digit before the point, and an exponent. -/
theorem floatText_scientific (n : Int) :
    FloatText digits (n - digits.length + 1)
      (digits.take 1 ++ '.' :: digits.drop 1 ++ 'e' :: (toString n).toList) := by
  have hpos : 0 < digits.length := List.length_pos_iff.mpr hdigits.1
  refine .intro (k := 0) (isSignificand_pointAfter hdigits one_pos)
    (.present (by decide) (denotesInteger_toString n)) ?_ ?_ ⟨'e', by simp, rfl⟩
  · exact dropWhile_take_drop hdigits hhead 1
  · rw [List.length_drop]
    omega

/-- Zeros before the digits. -/
theorem floatText_fraction (k : Nat) :
    FloatText digits (-k - digits.length)
      (['0'] ++ '.' :: (List.replicate k '0' ++ digits)) := by
  have hpoint : IsSignificand (['0'] ++ '.' :: (List.replicate k '0' ++ digits)) ['0']
      (List.replicate k '0' ++ digits) :=
    .point isDigits_zero (isDigits_zeros_before hdigits k).2
  rw [← List.append_nil (['0'] ++ _)]
  refine .intro (k := 0) hpoint .absent ?_ ?_ ⟨'.', by simp, rfl⟩
  · have hzeros : ∀ c ∈ List.replicate (k + 1) '0', (c == '0') = true := by
      intro c hc
      rw [List.eq_of_mem_replicate hc, beq_self_eq_true]
    rw [← List.append_assoc, List.singleton_append, ← List.replicate_succ,
      List.dropWhile_append_of_pos hzeros]
    simpa using dropWhile_zeros hdigits hhead []
  · rw [List.length_append, List.length_replicate]
    omega

/-- Zeros after the digits. -/
theorem floatText_whole (k : Nat) :
    FloatText digits k (digits ++ List.replicate k '0' ++ '.' :: ['0']) := by
  have hpoint : IsSignificand (digits ++ List.replicate k '0' ++ '.' :: ['0'])
      (digits ++ List.replicate k '0') ['0'] :=
    .point (isDigits_zeros_after hdigits k) isDigits_zero.2
  rw [← List.append_nil (_ ++ '.' :: ['0'])]
  refine .intro (k := k + 1) hpoint .absent ?_ ?_ ⟨'.', by simp, rfl⟩
  · rw [List.append_assoc, dropWhile_zeros hdigits hhead, List.replicate_succ']
  · rw [List.length_singleton]
    omega

/-- A point between the digits. -/
theorem floatText_pointed {count : Nat} (hcount : 0 < count)
    (hlength : count ≤ digits.length) :
    FloatText digits (count - digits.length)
      (digits.take count ++ '.' :: digits.drop count) := by
  rw [← List.append_nil (_ ++ '.' :: _)]
  refine .intro (k := 0) (isSignificand_pointAfter hdigits hcount) .absent ?_ ?_
    ⟨'.', by simp, rfl⟩
  · exact dropWhile_take_drop hdigits hhead count
  · rw [List.length_drop]
    omega

/-- Wherever the point is put, the digits and their place stay the same. -/
theorem floatText_place (leading : Int) :
    FloatText digits (leading - digits.length + 1)
      (floatFormat.place digits leading).toList := by
  unfold FloatFormat.place
  split_ifs with hfar hsingle hsmall hwhole
  · simpa [floatFormat] using floatText_digit hdigits hhead hsingle leading
  · simpa [floatFormat, FloatFormat.pointAfter] using
      floatText_scientific hdigits hhead leading
  · have hplaces : leading - digits.length + 1 =
        -((-leading - 1).toNat : Int) - digits.length := by omega
    rw [hplaces]
    simpa using floatText_fraction hdigits hhead (-leading - 1).toNat
  · have hplaces : leading - digits.length + 1 =
        ((leading.toNat + 1 - digits.length : Nat) : Int) := by omega
    rw [hplaces]
    simpa [floatFormat] using
      floatText_whole hdigits hhead (leading.toNat + 1 - digits.length)
  · have hplaces : leading - digits.length + 1 =
        ((leading.toNat + 1 : Nat) : Int) - digits.length := by omega
    rw [hplaces]
    simpa [FloatFormat.pointAfter] using
      floatText_pointed hdigits hhead (Nat.succ_pos leading.toNat) (by omega)

end Layout

/-- The digits that a decimal is printed with, without the zeros at their end. -/
theorem isDigits_significant {n : Nat} (hn : 0 < n) :
    IsDigits (FloatFormat.significant (Nat.toDigits 10 n)) ∧
      (FloatFormat.significant (Nat.toDigits 10 n)).head? ≠ some '0' := by
  obtain ⟨k, hsplit⟩ := FloatFormat.exists_zeros (Nat.toDigits 10 n)
  have hne := FloatFormat.significant_ne_nil (Nat.toDigits_ne_nil (n := n) (b := 10))
  have hhead := head?_toDigits_ne_zero hn
  rw [hsplit, List.head?_append_of_ne_nil _ hne] at hhead
  refine ⟨⟨hne, fun c hc => isDigit_of_mem_decimal (n := n) ?_⟩, hhead⟩
  rw [hsplit]
  exact List.mem_append_left _ hc

/-- A decimal reads the same without the zeros at its end. -/
theorem exists_places_significant (d : Decimal) :
    ∃ k : Nat, (Nat.toDigits 10 d.digits).length =
        (FloatFormat.significant (Nat.toDigits 10 d.digits)).length + k ∧
      ofDecimal (decimalNumber (FloatFormat.significant (Nat.toDigits 10 d.digits)))
        (FloatFormat.significant (Nat.toDigits 10 d.digits)).length (d.exponent + k) =
          d.toMagnitude := by
  obtain ⟨k, hsplit⟩ := FloatFormat.exists_zeros (Nat.toDigits 10 d.digits)
  have hlength := congrArg List.length hsplit
  have hnumber := congrArg decimalNumber hsplit
  rw [List.length_append, List.length_replicate] at hlength
  rw [decimalNumber_toDigits, decimalNumber_append_zeros] at hnumber
  refine ⟨k, hlength, ?_⟩
  rw [← ofDecimal_append_zeros _ _ k, ← hnumber, ← hlength, Int.add_sub_cancel]
  rfl

/-- The text of a finite magnitude spells digits that read as it. -/
theorem floatText_finite {m : Nat} (hm : m < infinity) :
    ∃ digits places, FloatText digits places (floatFormat.finite m).toList ∧
      ofDecimal (decimalNumber digits) digits.length places = m := by
  unfold FloatFormat.finite
  split
  · next hzero =>
      have hpoint : IsSignificand ['0', '.', '0'] ['0'] ['0'] :=
        .point isDigits_zero isDigits_zero.2
      exact ⟨[], -1, .intro (k := 0) hpoint .absent rfl rfl ⟨'.', by simp, rfl⟩,
        hzero.symm⟩
  · next hne =>
      have hread := Decimal.toMagnitude_shortest (Nat.pos_of_ne_zero hne) hm
      have hpositive : 0 < (Decimal.shortest m).digits := by
        apply Nat.pos_of_ne_zero
        intro hzero
        rw [Decimal.toMagnitude, hzero] at hread
        exact hne hread.symm
      obtain ⟨hdigits, hhead⟩ := isDigits_significant hpositive
      obtain ⟨k, hlength, hsame⟩ := exists_places_significant (Decimal.shortest m)
      refine ⟨_, _, floatText_place hdigits hhead _, ?_⟩
      refine (congrArg (ofDecimal _ _) ?_).trans (hsame.trans hread)
      omega

/-- A finite float is no integer as text, and it is read back from its text. -/
theorem float?_text {x : Float} (hx : magnitude x < infinity) :
    integer? (floatFormat.text x).toList = none ∧
      float? (floatFormat.text x).toList = some x := by
  obtain ⟨digits, places, htext, hread⟩ := floatText_finite hx
  have hsign : IsSign (if isNegative x then ['-'] else []) (isNegative x) := by
    cases isNegative x
    · exact .absent
    · exact .minus
  have hchars : (floatFormat.text x).toList =
      (if isNegative x then ['-'] else []) ++ (floatFormat.finite (magnitude x)).toList := by
    have hnumber : ¬ infinity < magnitude x := by omega
    have hfinite : magnitude x ≠ infinity := by omega
    simp only [FloatFormat.text, hnumber, hfinite, if_false]
    cases isNegative x <;> simp
  rw [hchars]
  refine ⟨htext.integer? hsign, (htext.float? hsign).trans ?_⟩
  rw [hread, ofMagnitude_magnitude]

/-- An infinite float is written as a word. -/
theorem text_of_infinite {x : Float} (hx : magnitude x = infinity) :
    floatFormat.text x = if isNegative x then "-inf" else "inf" := by
  rw [FloatFormat.text, if_neg (by omega), if_pos hx]
  cases isNegative x <;> rfl

section Characters

variable {text : List Char}

/-- The characters that floats are made of. -/
def isFloatChar (c : Char) : Bool :=
  c.isDigit || c ∈ ['+', '-', '.', 'e', 'E']

theorem isAtomChar_of_isFloatChar {c : Char} (hc : isFloatChar c = true) :
    isAtomChar c = true := by
  have hmarks : ['+', '-', '.', 'e', 'E'].all isAtomChar = true := by decide
  simp only [isFloatChar, Bool.or_eq_true, decide_eq_true_eq] at hc
  rcases hc with hdigit | hmark
  · exact isAtomChar_of_isDigit hdigit
  · exact List.all_eq_true.mp hmarks c hmark

theorem isFloatChar_of_digits (hdigits : ∀ c ∈ text, c.isDigit = true) :
    ∀ c ∈ text, isFloatChar c = true := by
  intro c hc
  simp [isFloatChar, hdigits c hc]

theorem IsSign.isFloatChar {negative : Bool} (hsign : IsSign text negative) :
    ∀ c ∈ text, isFloatChar c = true := by
  apply List.all_eq_true.mp
  cases hsign <;> rfl

theorem IsSignificand.isFloatChar {whole fraction : List Char}
    (hsignificand : IsSignificand text whole fraction) :
    ∀ c ∈ text, isFloatChar c = true := by
  have hpoint : Lisp.isFloatChar '.' = true := rfl
  cases hsignificand with
  | whole hwhole => exact isFloatChar_of_digits hwhole.2
  | point hwhole hfraction =>
      exact List.forall_mem_append.mpr ⟨isFloatChar_of_digits hwhole.2,
        List.forall_mem_cons.mpr ⟨hpoint, isFloatChar_of_digits hfraction⟩⟩
  | bare hfraction =>
      exact List.forall_mem_cons.mpr ⟨hpoint, isFloatChar_of_digits hfraction.2⟩

theorem IsExponent.isFloatChar {n : Int} (hexponent : IsExponent text n) :
    ∀ c ∈ text, isFloatChar c = true := by
  cases hexponent with
  | absent => exact List.forall_mem_nil _
  | @present mark _ _ hmark htext =>
      obtain ⟨hsign, hdigits⟩ := htext
      have hmarks : ['e', 'E'].all Lisp.isFloatChar = true := rfl
      exact List.forall_mem_cons.mpr ⟨List.all_eq_true.mp hmarks mark hmark,
        List.forall_mem_append.mpr
          ⟨hsign.isFloatChar, isFloatChar_of_digits hdigits.2⟩⟩

/-- A float is written with the characters of atoms. -/
theorem IsFloat.isAtomChar (htext : IsFloat text) :
    ∀ c ∈ text, isAtomChar c = true := by
  obtain ⟨_, _, _, _, _, _, _, rfl, hsign, hsignificand, hexponent⟩ := htext
  intro c hc
  refine isAtomChar_of_isFloatChar (List.forall_mem_append.mpr ⟨hsign.isFloatChar, ?_⟩ c hc)
  exact List.forall_mem_append.mpr ⟨hsignificand.isFloatChar, hexponent.isFloatChar⟩

end Characters

end Lisp
