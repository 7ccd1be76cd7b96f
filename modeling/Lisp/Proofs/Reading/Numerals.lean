import Mathlib.Data.List.TakeWhile
import Mathlib.Data.Nat.Digits.Defs
import Lisp.Proofs.Arithmetic.Exactness
import Lisp.Proofs.Reading.Grammar

/-!
How numbers are written.  An integer is an optional sign and decimal digits; a
float has digits with or without a point, and an exponent or none.  The main
statement classifies every atom by these two grammars: truth values first, then
integers, then floats, and everything else is a name.
-/

namespace Lisp

/-- An optional sign, and whether it is a minus. -/
inductive IsSign : List Char → Bool → Prop where
  | absent : IsSign [] false
  | plus : IsSign ['+'] false
  | minus : IsSign ['-'] true

/-- One or more decimal digits. -/
def IsDigits (text : List Char) : Prop :=
  text ≠ [] ∧ ∀ c ∈ text, c.isDigit = true

/-- The number that decimal digits stand for, the last one being the units. -/
def decimalValue (digits : List Char) : Nat :=
  Nat.ofDigits 10 (digits.reverse.map fun c => c.toNat - '0'.toNat)

/-- The texts that denote an integer. -/
inductive DenotesInteger : List Char → Int → Prop where
  | intro {sign digits : List Char} {negative : Bool}
      (hsign : IsSign sign negative) (hdigits : IsDigits digits) :
      DenotesInteger (sign ++ digits)
        (if negative then -(decimalValue digits : Int) else decimalValue digits)

/-- The significand of a float, with the digits before and after its point. -/
inductive IsSignificand : List Char → List Char → List Char → Prop where
  | whole {whole : List Char} (hwhole : IsDigits whole) :
      IsSignificand whole whole []
  | point {whole fraction : List Char} (hwhole : IsDigits whole)
      (hfraction : ∀ c ∈ fraction, c.isDigit = true) :
      IsSignificand (whole ++ '.' :: fraction) whole fraction
  | bare {fraction : List Char} (hfraction : IsDigits fraction) :
      IsSignificand ('.' :: fraction) [] fraction

/-- The exponent of a float and its value; without one it is zero. -/
inductive IsExponent : List Char → Int → Prop where
  | absent : IsExponent [] 0
  | present {mark : Char} {text : List Char} {n : Int}
      (hmark : mark ∈ ['e', 'E']) (htext : DenotesInteger text n) :
      IsExponent (mark :: text) n

/-- A float: a sign, a significand and an exponent. -/
def IsFloat (text : List Char) : Prop :=
  ∃ sign significand exponent negative whole fraction n,
    text = sign ++ (significand ++ exponent) ∧ IsSign sign negative ∧
      IsSignificand significand whole fraction ∧ IsExponent exponent n

theorem decimalNumber_eq_decimalValue (digits : List Char) :
    decimalNumber digits = decimalValue digits := by
  rw [decimalNumber, decimalValue, Nat.ofDigits_eq_foldr, List.foldr_map,
    List.foldl_eq_foldr_reverse]
  congr 1
  funext c n
  exact Nat.add_comm _ _

/-- A text that does not begin with a sign. -/
def Unsigned (text : List Char) : Prop :=
  text.head? ≠ some '-' ∧ text.head? ≠ some '+'

theorem splitSign_append {sign rest : List Char} {negative : Bool}
    (hsign : IsSign sign negative) (hrest : Unsigned rest) :
    splitSign (sign ++ rest) = (negative, rest) := by
  cases hsign with
  | plus | minus => rfl
  | absent =>
      obtain ⟨hminus, hplus⟩ := hrest
      cases rest with
      | nil => rfl
      | cons c rest =>
          have hminus : c ≠ '-' := fun h => hminus (congrArg some h)
          have hplus : c ≠ '+' := fun h => hplus (congrArg some h)
          simp [splitSign, hminus, hplus]

theorem exists_sign (text : List Char) :
    ∃ sign, IsSign sign (splitSign text).1 ∧
      text = sign ++ (splitSign text).2 := by
  unfold splitSign
  split
  · exact ⟨['-'], .minus, rfl⟩
  · exact ⟨['+'], .plus, rfl⟩
  · exact ⟨[], .absent, rfl⟩

theorem Unsigned.of_isDigit {c : Char} (hc : c.isDigit = true)
    (rest : List Char) : Unsigned (c :: rest) := by
  constructor
  · intro h
    obtain rfl := Option.some.inj h
    exact absurd hc (by decide)
  · intro h
    obtain rfl := Option.some.inj h
    exact absurd hc (by decide)

theorem IsDigits.unsigned {digits : List Char} (hdigits : IsDigits digits)
    (rest : List Char) : Unsigned (digits ++ rest) := by
  obtain ⟨hne, hall⟩ := hdigits
  obtain ⟨c, more, rfl⟩ := List.exists_cons_of_ne_nil hne
  exact .of_isDigit (hall c List.mem_cons_self) _

theorem isDigits_iff (digits : List Char) :
    digits ≠ [] ∧ digits.all Char.isDigit = true ↔ IsDigits digits := by
  rw [IsDigits, List.all_eq_true]

/-- Integers are read exactly. -/
theorem integer?_eq_some_iff (text : List Char) (n : Int) :
    integer? text = some n ↔ DenotesInteger text n := by
  constructor
  · intro hread
    obtain ⟨sign, hsign, htext⟩ := exists_sign text
    simp only [integer?, decimalNumber_eq_decimalValue] at hread
    split at hread
    · next hdigits =>
        have hvalue := DenotesInteger.intro hsign ((isDigits_iff _).mp hdigits)
        rwa [← htext, Option.some.inj hread] at hvalue
    · cases hread
  · rintro ⟨hsign, hdigits⟩
    have hunsigned := hdigits.unsigned []
    rw [List.append_nil] at hunsigned
    simp only [integer?, decimalNumber_eq_decimalValue]
    rw [splitSign_append hsign hunsigned, if_pos ((isDigits_iff _).mpr hdigits)]

theorem exponent?_eq_some_iff (text : List Char) (n : Int) :
    exponent? text = some n ↔ IsExponent text n := by
  constructor
  · intro hread
    cases text with
    | nil =>
        obtain rfl := Option.some.inj hread
        exact .absent
    | cons mark rest =>
        simp only [exponent?] at hread
        split at hread
        · next hmark =>
            exact .present (by simpa using hmark)
              ((integer?_eq_some_iff rest n).mp hread)
        · cases hread
  · intro hexponent
    cases hexponent with
    | absent => rfl
    | @present mark text n hmark htext =>
        have hmark : mark = 'e' ∨ mark = 'E' := by simpa using hmark
        rw [exponent?, if_pos hmark]
        exact (integer?_eq_some_iff text n).mpr htext

section Digits

/-- A text that does not go on with a digit. -/
def DigitsEnd (text : List Char) : Prop :=
  ∀ c, text.head? = some c → c.isDigit = false

variable {digits rest : List Char}

theorem DigitsEnd.takeWhile (hrest : DigitsEnd rest) :
    rest.takeWhile Char.isDigit = [] := by
  cases rest with
  | nil => rfl
  | cons c rest => simp [hrest c rfl]

theorem DigitsEnd.dropWhile (hrest : DigitsEnd rest) :
    rest.dropWhile Char.isDigit = rest := by
  cases rest with
  | nil => rfl
  | cons c rest => simp [hrest c rfl]

theorem takeWhile_digits (hdigits : ∀ c ∈ digits, c.isDigit = true)
    (hrest : DigitsEnd rest) :
    (digits ++ rest).takeWhile Char.isDigit = digits := by
  rw [List.takeWhile_append_of_pos hdigits, hrest.takeWhile, List.append_nil]

theorem dropWhile_digits (hdigits : ∀ c ∈ digits, c.isDigit = true)
    (hrest : DigitsEnd rest) :
    (digits ++ rest).dropWhile Char.isDigit = rest := by
  rw [List.dropWhile_append_of_pos hdigits, hrest.dropWhile]

theorem DigitsEnd.point (text : List Char) : DigitsEnd ('.' :: text) := by
  intro c hc
  obtain rfl := Option.some.inj hc
  decide

theorem IsExponent.digitsEnd {text : List Char} {n : Int}
    (hexponent : IsExponent text n) : DigitsEnd text := by
  intro c hc
  cases hexponent with
  | absent => cases hc
  | @present mark _ _ hmark =>
      obtain rfl := Option.some.inj hc
      have hmarks : ['e', 'E'].all (!·.isDigit) = true := rfl
      simpa using List.all_eq_true.mp hmarks mark hmark

theorem IsExponent.head_ne_point {text : List Char} {n : Int}
    (hexponent : IsExponent text n) (rest : List Char) :
    text ≠ '.' :: rest := by
  rintro rfl
  cases hexponent with
  | present hmark => exact absurd hmark (by decide)

end Digits

section FloatParts

variable {text whole fraction : List Char} {n : Int}

/-- The parts of a float without a point. -/
theorem floatParts?_of_no_point
    (hpoint : ∀ rest, text.dropWhile Char.isDigit ≠ '.' :: rest) :
    floatParts? text =
      if text.takeWhile Char.isDigit = [] then none
      else (exponent? (text.dropWhile Char.isDigit)).map
        (text.takeWhile Char.isDigit, [], ·) := by
  unfold floatParts?
  dsimp only
  split
  · next rest hrest => exact absurd hrest (hpoint rest)
  · rfl

/-- The parts of a float with a point. -/
theorem floatParts?_of_point {rest : List Char}
    (hpoint : text.dropWhile Char.isDigit = '.' :: rest) :
    floatParts? text =
      if text.takeWhile Char.isDigit = [] ∧ rest.takeWhile Char.isDigit = []
      then none
      else (exponent? (rest.dropWhile Char.isDigit)).map
        (text.takeWhile Char.isDigit, rest.takeWhile Char.isDigit, ·) := by
  unfold floatParts?
  simp only [hpoint]

theorem isDigits_takeWhile (hne : text.takeWhile Char.isDigit ≠ []) :
    IsDigits (text.takeWhile Char.isDigit) :=
  ⟨hne, fun _ hmem => List.mem_takeWhile_imp hmem⟩

theorem significand_of_floatParts? 
    (hread : floatParts? text = some (whole, fraction, n)) :
    ∃ significand exponent, text = significand ++ exponent ∧
      IsSignificand significand whole fraction ∧ IsExponent exponent n := by
  have hsplit := List.takeWhile_append_dropWhile (p := Char.isDigit) (l := text)
  by_cases hpoint : ∃ rest, text.dropWhile Char.isDigit = '.' :: rest
  · obtain ⟨rest, hrest⟩ := hpoint
    rw [floatParts?_of_point hrest] at hread
    split at hread
    · cases hread
    · next hdigits =>
        obtain ⟨m, hm, hparts⟩ := Option.map_eq_some_iff.mp hread
        obtain ⟨rfl, rfl, rfl⟩ : _ ∧ _ ∧ _ := by simpa using hparts
        have hexponent := (exponent?_eq_some_iff _ m).mp hm
        have hrestSplit :=
          List.takeWhile_append_dropWhile (p := Char.isDigit) (l := rest)
        by_cases hwhole : text.takeWhile Char.isDigit = []
        · refine ⟨'.' :: rest.takeWhile Char.isDigit, _, ?_, ?_, hexponent⟩
          · rw [hwhole, List.nil_append] at hsplit
            rw [List.cons_append, hrestSplit, ← hrest, hsplit]
          · rw [hwhole]
            exact .bare (isDigits_takeWhile fun h => hdigits ⟨hwhole, h⟩)
        · refine ⟨text.takeWhile Char.isDigit ++
            '.' :: rest.takeWhile Char.isDigit, _, ?_, ?_, hexponent⟩
          · rw [List.append_assoc, List.cons_append, hrestSplit, ← hrest, hsplit]
          · exact .point (isDigits_takeWhile hwhole)
              fun _ hmem => List.mem_takeWhile_imp hmem
  · rw [floatParts?_of_no_point fun rest h => hpoint ⟨rest, h⟩] at hread
    split at hread
    · cases hread
    · next hwhole =>
        obtain ⟨m, hm, hparts⟩ := Option.map_eq_some_iff.mp hread
        obtain ⟨rfl, rfl, rfl⟩ : _ ∧ _ ∧ _ := by simpa using hparts
        exact ⟨_, _, hsplit.symm, .whole (isDigits_takeWhile hwhole),
          (exponent?_eq_some_iff _ m).mp hm⟩

theorem IsSignificand.floatParts? {significand exponent : List Char}
    (hsignificand : IsSignificand significand whole fraction)
    (hexponent : IsExponent exponent n) :
    floatParts? (significand ++ exponent) = some (whole, fraction, n) := by
  have hread := (exponent?_eq_some_iff exponent n).mpr hexponent
  have hends := hexponent.digitsEnd
  cases hsignificand with
  | whole hwhole =>
      have hdrop := dropWhile_digits hwhole.2 hends
      have hpoint : ∀ rest,
          (whole ++ exponent).dropWhile Char.isDigit ≠ '.' :: rest := by
        rw [hdrop]
        exact hexponent.head_ne_point
      rw [floatParts?_of_no_point hpoint, hdrop,
        takeWhile_digits hwhole.2 hends, if_neg hwhole.1, hread]
      rfl
  | point hwhole hfraction =>
      rw [List.append_assoc, List.cons_append,
        floatParts?_of_point (dropWhile_digits hwhole.2 (.point _)),
        takeWhile_digits hwhole.2 (.point _), takeWhile_digits hfraction hends,
        dropWhile_digits hfraction hends, if_neg fun h => hwhole.1 h.1, hread]
      rfl
  | bare hfraction =>
      rw [List.cons_append,
        floatParts?_of_point (DigitsEnd.point _).dropWhile,
        (DigitsEnd.point _).takeWhile, takeWhile_digits hfraction.2 hends,
        dropWhile_digits hfraction.2 hends, if_neg fun h => hfraction.1 h.2,
        hread]
      rfl

/-- The parts of a float are found exactly. -/
theorem floatParts?_eq_some_iff :
    floatParts? text = some (whole, fraction, n) ↔
      ∃ significand exponent, text = significand ++ exponent ∧
        IsSignificand significand whole fraction ∧ IsExponent exponent n := by
  constructor
  · exact significand_of_floatParts?
  · rintro ⟨significand, exponent, rfl, hsignificand, hexponent⟩
    exact hsignificand.floatParts? hexponent

end FloatParts

theorem IsSignificand.unsigned {significand whole fraction : List Char}
    (hsignificand : IsSignificand significand whole fraction)
    (rest : List Char) : Unsigned (significand ++ rest) := by
  cases hsignificand with
  | whole hwhole => exact hwhole.unsigned rest
  | point hwhole hfraction =>
      rw [List.append_assoc]
      exact hwhole.unsigned _
  | bare hfraction => exact ⟨by simp, by simp⟩

/-- The double that a float is read as. -/
theorem float?_spelled {sign significand exponent whole fraction : List Char}
    {negative : Bool} {n : Int} (hsign : IsSign sign negative)
    (hsignificand : IsSignificand significand whole fraction)
    (hexponent : IsExponent exponent n) :
    float? (sign ++ (significand ++ exponent)) =
      let digits := (whole ++ fraction).dropWhile (· == '0')
      some (Binary64.ofMagnitude negative
        (Binary64.ofDecimal (decimalNumber digits) digits.length
          (n - fraction.length))) := by
  rw [float?, splitSign_append hsign (hsignificand.unsigned exponent)]
  simp only [hsignificand.floatParts? hexponent, Option.map_some]

theorem isSome_float?_iff (text : List Char) :
    (float? text).isSome ↔ IsFloat text := by
  constructor
  · intro hread
    obtain ⟨sign, hsign, htext⟩ := exists_sign text
    rw [float?, Option.isSome_map] at hread
    obtain ⟨⟨whole, fraction, n⟩, hparts⟩ := Option.isSome_iff_exists.mp hread
    obtain ⟨significand, exponent, hrest, hsignificand, hexponent⟩ :=
      floatParts?_eq_some_iff.mp hparts
    exact ⟨sign, significand, exponent, _, whole, fraction, n,
      by rw [← hrest, ← htext], hsign, hsignificand, hexponent⟩
  · rintro ⟨_, _, _, _, _, _, _, rfl, hsign, hsignificand, hexponent⟩
    rw [float?_spelled hsign hsignificand hexponent]
    rfl

/-- How a truth value is written. -/
def truthText (b : Bool) : String :=
  if b then "#t" else "#f"

theorem Datum.ofAtom_truth (b : Bool) (place : Location) :
    Datum.ofAtom (truthText b) place = .bool b := by
  cases b <;> rfl

/-- A truth value is no number. -/
theorem not_number_of_truth (b : Bool) :
    integer? (truthText b).toList = none ∧
      float? (truthText b).toList = none := by
  cases b <;> exact ⟨rfl, rfl⟩

theorem not_truth_iff (text : String) :
    (∀ b, text ≠ truthText b) ↔ text ≠ "#t" ∧ text ≠ "#f" := by
  rw [Bool.forall_bool, and_comm]
  rfl

/-- The text of a number is not that of a truth value. -/
theorem ne_truthText_of_number (text : String)
    (hnumber : (integer? text.toList).isSome ∨ (float? text.toList).isSome)
    (b : Bool) : text ≠ truthText b := by
  rintro rfl
  obtain ⟨hinteger, hfloat⟩ := not_number_of_truth b
  simp [hinteger, hfloat] at hnumber

theorem Datum.ofAtom_integer {text : String} {n : Int}
    (hread : integer? text.toList = some n) (place : Location) :
    Datum.ofAtom text place =
      if fitsWord n then .int (Int64.ofInt n) else .big n := by
  have hnumber := ne_truthText_of_number text (.inl (by simp [hread]))
  obtain ⟨htrue, hfalse⟩ := (not_truth_iff text).mp hnumber
  simp only [Datum.ofAtom, htrue, hfalse, if_false, hread]

theorem Datum.ofAtom_float {text : String} {x : Float}
    (hinteger : integer? text.toList = none)
    (hread : float? text.toList = some x) (place : Location) :
    Datum.ofAtom text place = .float x := by
  have hnumber := ne_truthText_of_number text (.inr (by simp [hread]))
  obtain ⟨htrue, hfalse⟩ := (not_truth_iff text).mp hnumber
  simp only [Datum.ofAtom, htrue, hfalse, if_false, hinteger, hread]

/-- A word is the word of an integer just where it has its value. -/
theorem ofInt_eq_iff {n : Int} (hfits : fitsWord n = true) (word : Int64) :
    Int64.ofInt n = word ↔ n = word.toInt := by
  constructor
  · rintro rfl
    exact (toInt_ofInt_of_fitsWord hfits).symm
  · rintro rfl
    exact Int64.ofInt_toInt word

section Classes

variable (text : String) (place : Location)

/-- An atom is a truth value, an integer, a float or a name. -/
theorem Datum.ofAtom_cases :
    (∃ b, text = truthText b ∧ Datum.ofAtom text place = .bool b) ∨
    (∃ n, integer? text.toList = some n ∧ Datum.ofAtom text place =
      if fitsWord n then .int (Int64.ofInt n) else .big n) ∨
    (∃ x, integer? text.toList = none ∧ float? text.toList = some x ∧
      Datum.ofAtom text place = .float x) ∨
    (¬ IsLiteral text ∧ Datum.ofAtom text place = .ref text (some place)) := by
  by_cases hliteral : IsLiteral text
  · cases hinteger : integer? text.toList with
    | some n => exact .inr (.inl ⟨n, rfl, ofAtom_integer hinteger place⟩)
    | none =>
        cases hfloat : float? text.toList with
        | some x => exact .inr (.inr (.inl ⟨x, rfl, rfl, ofAtom_float hinteger hfloat place⟩))
        | none =>
            left
            rcases hliteral with rfl | rfl | hread | hread
            · exact ⟨true, rfl, rfl⟩
            · exact ⟨false, rfl, rfl⟩
            · simp [hinteger] at hread
            · simp [hfloat] at hread
  · exact .inr (.inr (.inr ⟨hliteral, ofAtom_name hliteral place⟩))

theorem Datum.ofAtom_eq_bool_iff (b : Bool) :
    Datum.ofAtom text place = .bool b ↔ text = truthText b := by
  constructor
  · intro hatom
    rcases ofAtom_cases text place with
      ⟨c, htext, h⟩ | ⟨n, _, h⟩ | ⟨x, _, _, h⟩ | ⟨_, h⟩
    · obtain rfl := Datum.bool.inj (hatom.symm.trans h)
      exact htext
    · split at h <;> cases hatom.symm.trans h
    · cases hatom.symm.trans h
    · cases hatom.symm.trans h
  · rintro rfl
    exact ofAtom_truth b place

theorem Datum.ofAtom_eq_int_iff (n : Int64) :
    Datum.ofAtom text place = .int n ↔ integer? text.toList = some n.toInt := by
  constructor
  · intro hatom
    rcases ofAtom_cases text place with
      ⟨c, _, h⟩ | ⟨m, hread, h⟩ | ⟨x, _, _, h⟩ | ⟨_, h⟩
    · cases hatom.symm.trans h
    · split at h
      · next hfits =>
          have hword := Datum.int.inj (h.symm.trans hatom)
          rw [hread, (ofInt_eq_iff hfits n).mp hword]
      · cases hatom.symm.trans h
    · cases hatom.symm.trans h
    · cases hatom.symm.trans h
  · intro hread
    rw [ofAtom_integer hread, if_pos (fitsWord_toInt n), Int64.ofInt_toInt]

theorem Datum.ofAtom_eq_big_iff (n : Int) :
    Datum.ofAtom text place = .big n ↔
      integer? text.toList = some n ∧ ¬ fitsWord n = true := by
  constructor
  · intro hatom
    rcases ofAtom_cases text place with
      ⟨c, _, h⟩ | ⟨m, hread, h⟩ | ⟨x, _, _, h⟩ | ⟨_, h⟩
    · cases hatom.symm.trans h
    · split at h
      · cases hatom.symm.trans h
      · next hbig =>
          obtain rfl := Datum.big.inj (h.symm.trans hatom)
          exact ⟨hread, hbig⟩
    · cases hatom.symm.trans h
    · cases hatom.symm.trans h
  · rintro ⟨hread, hbig⟩
    rw [ofAtom_integer hread, if_neg hbig]

theorem Datum.exists_ofAtom_eq_float_iff :
    (∃ x, Datum.ofAtom text place = .float x) ↔
      (float? text.toList).isSome ∧ ∀ n, ¬ integer? text.toList = some n := by
  constructor
  · rintro ⟨y, hatom⟩
    rcases ofAtom_cases text place with
      ⟨c, _, h⟩ | ⟨m, _, h⟩ | ⟨x, hinteger, hread, _⟩ | ⟨_, h⟩
    · cases hatom.symm.trans h
    · split at h <;> cases hatom.symm.trans h
    · simp [hinteger, hread]
    · cases hatom.symm.trans h
  · rintro ⟨hread, hinteger⟩
    obtain ⟨x, hread⟩ := Option.isSome_iff_exists.mp hread
    exact ⟨x, ofAtom_float (Option.eq_none_iff_forall_ne_some.mpr hinteger) hread place⟩

theorem Datum.ofAtom_eq_ref_iff :
    Datum.ofAtom text place = .ref text (some place) ↔ ¬ IsLiteral text := by
  constructor
  · intro hatom
    rcases ofAtom_cases text place with
      ⟨c, _, h⟩ | ⟨m, _, h⟩ | ⟨x, _, _, h⟩ | ⟨hname, _⟩
    · cases hatom.symm.trans h
    · split at h <;> cases hatom.symm.trans h
    · cases hatom.symm.trans h
    · exact hname
  · exact fun hname => ofAtom_name hname place

end Classes

/-- An atom is what its text denotes: a truth value, an integer in a machine
word if it fits there, a float if it is no integer, and otherwise the name it
is, with the place of its token. -/
theorem atom_classified (text : String) (place : Location) :
    (∀ b, Datum.ofAtom text place = .bool b ↔
      text = if b then "#t" else "#f") ∧
    (∀ n : Int64, Datum.ofAtom text place = .int n ↔
      DenotesInteger text.toList n.toInt) ∧
    (∀ n : Int, Datum.ofAtom text place = .big n ↔
      DenotesInteger text.toList n ∧ ¬ (-2 ^ 63 ≤ n ∧ n ≤ 2 ^ 63 - 1)) ∧
    ((∃ x, Datum.ofAtom text place = .float x) ↔
      IsFloat text.toList ∧ ∀ n, ¬ DenotesInteger text.toList n) ∧
    (Datum.ofAtom text place = .ref text (some place) ↔
      text ≠ "#t" ∧ text ≠ "#f" ∧ (∀ n, ¬ DenotesInteger text.toList n) ∧
        ¬ IsFloat text.toList) := by
  simp only [← integer?_eq_some_iff, ← isSome_float?_iff, ← fitsWord_iff]
  refine ⟨Datum.ofAtom_eq_bool_iff text place, Datum.ofAtom_eq_int_iff text place,
    Datum.ofAtom_eq_big_iff text place, Datum.exists_ofAtom_eq_float_iff text place, ?_⟩
  rw [Datum.ofAtom_eq_ref_iff]
  simp [IsLiteral, Option.eq_none_iff_forall_ne_some]

end Lisp
