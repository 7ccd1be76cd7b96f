import Mathlib.Algebra.Group.Nat.Defs
import Mathlib.Tactic.SplitIfs
import Lisp.Datum.Atom
import Lisp.Text.Quoted
import Lisp.Token

/-!
Literals read back.  A string is decoded from the body it is encoded as, and an
integer from its decimal digits.  A body that cannot be decoded has a bad escape
in it.
-/

namespace Lisp

namespace Quoted

theorem hexValue?_hexDigit : ∀ n < 16, hexValue? (hexDigit n) = some n := by
  decide

/-- The characters of a body that stand for themselves. -/
def IsPlain (c : Char) : Prop :=
  c ≠ '"' ∧ c ≠ '\\'

instance (c : Char) : Decidable (IsPlain c) :=
  inferInstanceAs (Decidable (_ ∧ _))

theorem isPlain_hexDigit : ∀ n < 16, IsPlain (hexDigit n) := by
  decide

theorem length_hexDigits (width n : Nat) :
    (hexDigits width n).length = width := by
  induction width generalizing n with
  | zero => rfl
  | succ width ih => simp [hexDigits, ih]

theorem isPlain_of_mem_hexDigits {width n : Nat} {c : Char}
    (hmem : c ∈ hexDigits width n) : IsPlain c := by
  induction width generalizing n with
  | zero => simp [hexDigits] at hmem
  | succ width ih =>
      simp only [hexDigits, List.mem_append, List.mem_singleton] at hmem
      rcases hmem with hmem | rfl
      · exact ih hmem
      · exact isPlain_hexDigit (n % 16) (Nat.mod_lt n (by decide))

theorem hexNumber?_hexDigits {width n : Nat} (hn : n < 16 ^ width) :
    hexNumber? (hexDigits width n) = some n := by
  induction width generalizing n with
  | zero =>
      obtain rfl : n = 0 := by omega
      rfl
  | succ width ih =>
      have hhigh : n / 16 < 16 ^ width := by
        rw [Nat.pow_succ] at hn
        omega
      have hlast := hexValue?_hexDigit (n % 16) (Nat.mod_lt n (by decide))
      have hprefix := ih hhigh
      rw [hexNumber?] at hprefix ⊢
      rw [hexDigits, List.foldlM_append, hprefix]
      simp only [Option.bind_eq_bind, Option.bind_some, List.foldlM_cons,
        List.foldlM_nil, hlast, Option.map_some, Option.pure_def]
      congr 1
      omega

theorem charOf?_toNat (c : Char) : charOf? c.toNat = some c := by
  have hvalid : c.toNat.isValidChar := c.valid
  rw [charOf?, dif_pos hvalid]
  rfl

theorem decodeNumeric_hexDigits {width : Nat} {c : Char}
    (hwidth : c.toNat < 16 ^ width) (marker : Char) (rest : List Char) :
    decodeNumeric marker width (hexDigits width c.toNat ++ rest) =
      .ok (c, rest) := by
  have hlength := length_hexDigits width c.toNat
  have htake : (hexDigits width c.toNat ++ rest).take width =
      hexDigits width c.toNat := by
    rw [List.take_append_of_le_length (by omega),
      List.take_of_length_le (by omega)]
  have hdrop : (hexDigits width c.toNat ++ rest).drop width = rest := by
    rw [List.drop_append_of_le_length (by omega),
      List.drop_of_length_le (by omega)]
    rfl
  simp [decodeNumeric, htake, hdrop, hlength, hexNumber?_hexDigits hwidth,
    charOf?_toNat]

/-- The escape `written` stands for `c`: after its backslash and marker come
only plain characters, and decoding takes no more than the escape. -/
def IsEscape (c : Char) (written : List Char) : Prop :=
  ∃ marker digits, written = '\\' :: marker :: digits ∧
    (∀ digit ∈ digits, IsPlain digit) ∧
    ∀ rest, decodeEscape (marker :: (digits ++ rest)) = .ok (c, rest)

theorem isEscape_plain {marker c : Char}
    (hmarker : plainEscape? marker = some c) :
    IsEscape c ['\\', marker] := by
  refine ⟨marker, [], rfl, by simp, ?_⟩
  intro rest
  simp [decodeEscape, hmarker]

theorem isEscape_numeric {marker c : Char} {width : Nat}
    (hplain : plainEscape? marker = none)
    (hmarker : escapeWidth? marker = some width)
    (hwidth : c.toNat < 16 ^ width) :
    IsEscape c ('\\' :: marker :: hexDigits width c.toNat) := by
  refine ⟨marker, hexDigits width c.toNat, rfl,
    fun _ hmem => isPlain_of_mem_hexDigits hmem, ?_⟩
  intro rest
  simp [decodeEscape, hplain, hmarker, decodeNumeric_hexDigits hwidth]

/-- A character is encoded as itself or as an escape. -/
theorem encodeChar_cases (c : Char) :
    (encodeChar c = [c] ∧ IsPlain c) ∨ IsEscape c (encodeChar c) := by
  have hmax : c.toNat < 16 ^ 8 := by
    have hvalid : c.toNat.isValidChar := c.valid
    rcases hvalid with hlow | ⟨_, hhigh⟩ <;> omega
  unfold encodeChar
  split_ifs with hquote hbackslash hnewline htab hreturn hascii hbyte hshort
  · subst hquote
    exact .inr (isEscape_plain rfl)
  · subst hbackslash
    exact .inr (isEscape_plain rfl)
  · subst hnewline
    exact .inr (isEscape_plain rfl)
  · subst htab
    exact .inr (isEscape_plain rfl)
  · subst hreturn
    exact .inr (isEscape_plain rfl)
  · exact .inl ⟨rfl, hquote, hbackslash⟩
  · exact .inr (isEscape_numeric rfl rfl (by omega))
  · exact .inr (isEscape_numeric rfl rfl (by omega))
  · exact .inr (isEscape_numeric rfl rfl hmax)

theorem decodeFrom_encodeChar (done : String) (c : Char) (rest : List Char) :
    decodeFrom done (encodeChar c ++ rest) = decodeFrom (done.push c) rest := by
  rcases encodeChar_cases c with
    ⟨hself, hplain⟩ | ⟨marker, digits, hwritten, _, hdecode⟩
  · rw [hself, List.singleton_append, decodeFrom, if_neg hplain.2]
  · rw [hwritten, List.cons_append, decodeFrom, if_pos rfl]
    split
    case h_1 hread =>
      rw [List.cons_append, hdecode] at hread
      obtain ⟨rfl, rfl⟩ := Prod.mk.inj (Except.ok.inj hread)
      rfl
    case h_2 hread =>
      rw [List.cons_append, hdecode] at hread
      cases hread

theorem decodeFrom_encode (done : String) (s : List Char) :
    decodeFrom done (s.flatMap encodeChar) = .ok (done ++ String.ofList s) := by
  induction s generalizing done with
  | nil => simp [decodeFrom]
  | cons c s ih =>
      rw [List.flatMap_cons, decodeFrom_encodeChar, ih]
      simp [← String.toList_inj]

/-- Decoding undoes encoding. -/
theorem decode_encode (s : String) :
    decode (String.ofList (s.toList.flatMap encodeChar)) = .ok s := by
  rw [decode, String.toList_ofList, decodeFrom_encode]
  simp

theorem decodeNumeric_fault {marker : Char} {width : Nat} {rest : List Char}
    {cause : Cause} (hfails : decodeNumeric marker width rest = .error cause) :
    cause.kind = .invalidEscape := by
  unfold decodeNumeric at hfails
  dsimp only at hfails
  split at hfails
  · cases hfails
    rfl
  · split at hfails
    · cases hfails
      rfl
    · cases hfails

theorem decodeEscape_fault {rest : List Char} {cause : Cause}
    (hfails : decodeEscape rest = .error cause) :
    cause.kind = .invalidEscape := by
  unfold decodeEscape at hfails
  split at hfails
  · cases hfails
    rfl
  · split at hfails
    · cases hfails
    · split at hfails
      · exact decodeNumeric_fault hfails
      · cases hfails
        rfl

/-- A body that cannot be decoded has a bad escape in it. -/
theorem decodeFrom_fault {done : String} {body : List Char} {cause : Cause}
    (hfails : decodeFrom done body = .error cause) :
    cause.kind = .invalidEscape := by
  fun_induction decodeFrom done body with
  | case1 done => cases hfails
  | case2 done rest decoded left hread ih => exact ih hfails
  | case3 done rest trouble hread =>
      cases hfails
      exact decodeEscape_fault hread
  | case4 done c rest hplain ih => exact ih hfails

end Quoted

theorem integer?_digits {digits : List Char} (hne : digits ≠ [])
    (hdigits : ∀ c ∈ digits, c.isDigit) :
    integer? digits = some (decimalNumber digits : Int) := by
  obtain ⟨first, rest, rfl⟩ := List.exists_cons_of_ne_nil hne
  have hfirst : first.isDigit := hdigits first List.mem_cons_self
  have hminus : first ≠ '-' := fun h => absurd (h ▸ hfirst) (by decide)
  have hplus : first ≠ '+' := fun h => absurd (h ▸ hfirst) (by decide)
  have hsign : splitSign (first :: rest) = (false, first :: rest) := by
    simp [splitSign, hminus, hplus]
  simp only [integer?, hsign]
  rw [if_pos ⟨hne, List.all_eq_true.2 hdigits⟩]
  rfl

theorem integer?_minus_digits {digits : List Char} (hne : digits ≠ [])
    (hdigits : ∀ c ∈ digits, c.isDigit) :
    integer? ('-' :: digits) = some (-(decimalNumber digits : Int)) := by
  simp only [integer?, splitSign]
  rw [if_pos ⟨hne, List.all_eq_true.2 hdigits⟩]
  rfl

theorem decimalNumber_toDigits (n : Nat) :
    decimalNumber (Nat.toDigits 10 n) = n :=
  Nat.ofDigitChars_ten_toDigits

/-- The digits of an integer, after a minus if it is negative. -/
theorem toList_toString_int (n : Int) :
    (toString n).toList =
      if 0 ≤ n then Nat.toDigits 10 n.toNat
      else '-' :: Nat.toDigits 10 (-n).toNat := by
  rw [Int.toString_eq_repr, Int.repr_eq_if]
  split
  · exact Nat.toList_repr
  · rw [String.toList_append, Nat.toList_repr]
    rfl

theorem isDigit_of_mem_decimal {n : Nat} {c : Char}
    (hmem : c ∈ Nat.toDigits 10 n) :
    c.isDigit :=
  Nat.isDigit_of_mem_toDigits (by decide) (by decide) hmem

/-- The text of an integer denotes it. -/
theorem integer?_toString (n : Int) :
    integer? (toString n).toList = some n := by
  have hdigits (m : Nat) : ∀ c ∈ Nat.toDigits 10 m, c.isDigit :=
    fun _ hmem => isDigit_of_mem_decimal hmem
  rw [toList_toString_int]
  split
  case isTrue hn =>
    rw [integer?_digits Nat.toDigits_ne_nil (hdigits _), decimalNumber_toDigits,
      Int.toNat_of_nonneg hn]
  case isFalse hn =>
    rw [integer?_minus_digits Nat.toDigits_ne_nil (hdigits _),
      decimalNumber_toDigits, Int.toNat_of_nonneg (by omega), Int.neg_neg]

theorem isAtomChar_of_isDigit {c : Char} (hdigit : c.isDigit) :
    isAtomChar c = true := by
  have hall : ∀ n < 58, 48 ≤ n → isAtomChar (Char.ofNat n) = true := by decide
  simp only [Char.isDigit, Bool.and_eq_true, decide_eq_true_eq] at hdigit
  have hlow : 48 ≤ c.toNat := hdigit.1
  have hhigh : c.toNat ≤ 57 := hdigit.2
  rw [← Char.ofNat_toNat c]
  exact hall c.toNat (by omega) hlow

theorem isAtomChar_of_mem_toString {n : Int} {c : Char}
    (hmem : c ∈ (toString n).toList) : isAtomChar c = true := by
  rw [toList_toString_int] at hmem
  split at hmem
  · exact isAtomChar_of_isDigit (isDigit_of_mem_decimal hmem)
  · rcases List.mem_cons.1 hmem with rfl | hmem
    · decide
    · exact isAtomChar_of_isDigit (isDigit_of_mem_decimal hmem)

/-- A text that denotes no integer is not the text of one. -/
theorem toString_int_ne {text : String} (htext : integer? text.toList = none)
    (n : Int) : toString n ≠ text := by
  intro h
  rw [← h, integer?_toString] at htext
  cases htext

end Lisp
