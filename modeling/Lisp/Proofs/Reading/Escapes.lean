import Mathlib
import Lisp.Proofs.Reading.Continuation
import Lisp.Proofs.Reading.Literal

/-!
What the body of a string stands for.  A body is made up of units: characters
that stand for themselves, one-letter escapes and numeric escapes.  The main
statement says that decoding gives the characters that the units stand for, and
that every other body is refused at the place of its string.
-/

namespace Lisp

namespace Quoted

/-- A hexadecimal digit of either case and its value. -/
def IsHexDigit (c : Char) (value : Nat) : Prop :=
  value < 16 ∧
    (c = Nat.digitChar value ∨ c = (Nat.digitChar value).toUpper)

instance (c : Char) (value : Nat) : Decidable (IsHexDigit c value) :=
  inferInstanceAs (Decidable (_ ∧ _))

/-- A unit of a body as it is written, and the character it stands for.  A
numeric escape stands for the character with its number as code point, if there
is one. -/
inductive Denotes : List Char → Char → Prop where
  | plain {c : Char} (hc : c ≠ '\\') : Denotes [c] c
  | newline : Denotes ['\\', 'n'] '\n'
  | carriageReturn : Denotes ['\\', 'r'] '\r'
  | tab : Denotes ['\\', 't'] '\t'
  | backslash : Denotes ['\\', '\\'] '\\'
  | quotationMark : Denotes ['\\', '"'] '"'
  | numeric {marker c : Char} {digits : List Char} {values : List Nat}
      (hwidth : (marker, digits.length) ∈ [('x', 2), ('u', 4), ('U', 8)])
      (hdigits : List.Forall₂ IsHexDigit digits values)
      (hcode : Nat.ofDigits 16 values.reverse = c.toNat) :
      Denotes ('\\' :: marker :: digits) c

/-- A body, unit by unit, and the characters that its units stand for. -/
def DenotesAll (body chars : List Char) : Prop :=
  ∃ units : List (List Char × Char), (∀ unit ∈ units, Denotes unit.1 unit.2) ∧
    units.flatMap Prod.fst = body ∧ units.map Prod.snd = chars

theorem DenotesAll.nil : DenotesAll [] [] :=
  ⟨[], List.forall_mem_nil _, rfl, rfl⟩

theorem DenotesAll.cons {written body chars : List Char} {c : Char}
    (hbody : DenotesAll body chars) (hunit : Denotes written c) :
    DenotesAll (written ++ body) (c :: chars) := by
  obtain ⟨units, hunits, rfl, rfl⟩ := hbody
  exact ⟨(written, c) :: units, List.forall_mem_cons.mpr ⟨hunit, hunits⟩, rfl,
    rfl⟩

section HexDigits

/-- Only ASCII characters have a value as digits. -/
theorem toNat_lt_of_hexValue? {c : Char} {value : Nat}
    (hvalue : hexValue? c = some value) : c.toNat < 128 := by
  unfold hexValue? at hvalue
  split_ifs at hvalue with hdecimal hupper hlower
  · exact Nat.lt_of_le_of_lt hdecimal.2 (by decide)
  · exact Nat.lt_of_le_of_lt hupper.2 (by decide)
  · exact Nat.lt_of_le_of_lt hlower.2 (by decide)

theorem hexValue?_eq_some_iff (c : Char) (value : Nat) :
    hexValue? c = some value ↔ IsHexDigit c value := by
  constructor
  · intro hvalue
    have hread : ∀ n < 128, ∀ v, hexValue? (Char.ofNat n) = some v →
        IsHexDigit (Char.ofNat n) v := by
      intro n hn v hv
      have hall : ∀ n < 128, (hexValue? (Char.ofNat n)).all fun v =>
          decide (IsHexDigit (Char.ofNat n) v) := by decide
      simpa [hv] using hall n hn
    have hc := hread c.toNat (toNat_lt_of_hexValue? hvalue) value
    rw [Char.ofNat_toNat] at hc
    exact hc hvalue
  · rintro ⟨hvalue, hc⟩
    have hlower : ∀ v < 16, hexValue? (Nat.digitChar v) = some v := by decide
    have hupper : ∀ v < 16, hexValue? (Nat.digitChar v).toUpper = some v := by
      decide
    rcases hc with rfl | rfl
    · exact hlower value hvalue
    · exact hupper value hvalue

/-- The number of a run of digits, least digit first. -/
theorem hexNumber?_reverse_eq_some_iff (digits : List Char) (n : Nat) :
    hexNumber? digits.reverse = some n ↔
      ∃ values, List.Forall₂ IsHexDigit digits values ∧
        Nat.ofDigits 16 values = n := by
  induction digits generalizing n with
  | nil => simp [hexNumber?]
  | cons c digits ih =>
      have hsplit : hexNumber? (c :: digits).reverse =
          (hexNumber? digits.reverse).bind fun high =>
            (hexValue? c).map (16 * high + ·) := by
        simp [hexNumber?, List.foldlM_append]
      rw [hsplit]
      simp only [Option.bind_eq_some_iff, Option.map_eq_some_iff, ih,
        hexValue?_eq_some_iff, List.forall₂_cons_left_iff]
      constructor
      · rintro ⟨_, ⟨values, hvalues, rfl⟩, value, hvalue, rfl⟩
        refine ⟨value :: values, ⟨value, values, hvalue, hvalues, rfl⟩, ?_⟩
        rw [Nat.ofDigits_cons, Nat.add_comm]
      · rintro ⟨_, ⟨value, values, hvalue, hvalues, rfl⟩, rfl⟩
        refine ⟨_, ⟨values, hvalues, rfl⟩, value, hvalue, ?_⟩
        rw [Nat.ofDigits_cons, Nat.add_comm]

theorem hexNumber?_eq_some_iff (digits : List Char) (n : Nat) :
    hexNumber? digits = some n ↔
      ∃ values, List.Forall₂ IsHexDigit digits values ∧
        Nat.ofDigits 16 values.reverse = n := by
  have hreverse := hexNumber?_reverse_eq_some_iff digits.reverse n
  rw [List.reverse_reverse] at hreverse
  rw [hreverse]
  constructor
  · rintro ⟨values, hvalues, rfl⟩
    refine ⟨values.reverse, ?_, by rw [List.reverse_reverse]⟩
    rwa [← List.forall₂_reverse_iff, List.reverse_reverse]
  · rintro ⟨values, hvalues, rfl⟩
    exact ⟨values.reverse, List.forall₂_reverse_iff.mpr hvalues, rfl⟩

end HexDigits

/-- The characters are the code points that are neither surrogates nor too
large. -/
theorem charOf?_eq_some_iff (n : Nat) (c : Char) :
    charOf? n = some c ↔ n = c.toNat := by
  constructor
  · intro hread
    unfold charOf? at hread
    split at hread
    · obtain rfl := Option.some.inj hread
      rfl
    · cases hread
  · rintro rfl
    exact charOf?_toNat c

theorem plainEscape?_cases {marker c : Char}
    (hread : plainEscape? marker = some c) : Denotes ['\\', marker] c := by
  unfold plainEscape? at hread
  split at hread
  · obtain rfl := Option.some.inj hread
    exact .newline
  · obtain rfl := Option.some.inj hread
    exact .carriageReturn
  · obtain rfl := Option.some.inj hread
    exact .tab
  · obtain rfl := Option.some.inj hread
    exact .backslash
  · obtain rfl := Option.some.inj hread
    exact .quotationMark
  · cases hread

theorem escapeWidth?_eq_some_iff (marker : Char) (width : Nat) :
    escapeWidth? marker = some width ↔
      (marker, width) ∈ [('x', 2), ('u', 4), ('U', 8)] := by
  constructor
  · intro hwidth
    unfold escapeWidth? at hwidth
    split at hwidth
    · obtain rfl := Option.some.inj hwidth
      simp
    · obtain rfl := Option.some.inj hwidth
      simp
    · obtain rfl := Option.some.inj hwidth
      simp
    · cases hwidth
  · intro hmem
    simp only [List.mem_cons, Prod.mk.injEq, List.not_mem_nil,
      or_false] at hmem
    rcases hmem with ⟨rfl, rfl⟩ | ⟨rfl, rfl⟩ | ⟨rfl, rfl⟩ <;> rfl

section Soundness

theorem denotes_of_decodeNumeric {marker c : Char} {width : Nat}
    {rest left : List Char} (hwidth : escapeWidth? marker = some width)
    (hread : decodeNumeric marker width rest = .ok (c, left)) :
    ∃ digits, rest = digits ++ left ∧
      Denotes ('\\' :: marker :: digits) c := by
  unfold decodeNumeric at hread
  dsimp only at hread
  split at hread
  · cases hread
  · next n hnumber =>
      split at hread
      · cases hread
      · next found hfound =>
          obtain ⟨rfl, rfl⟩ := Prod.mk.inj (Except.ok.inj hread)
          split_ifs at hnumber with hlength
          obtain ⟨values, hvalues, hn⟩ :=
            (hexNumber?_eq_some_iff _ n).mp hnumber
          have hmarker := (escapeWidth?_eq_some_iff marker width).mp hwidth
          rw [(charOf?_eq_some_iff n found).mp hfound] at hn
          rw [← hlength] at hmarker
          exact ⟨rest.take width, (List.take_append_drop width rest).symm,
            .numeric hmarker hvalues hn⟩

/-- What follows a backslash and is decoded is the rest of a unit. -/
theorem denotes_of_decodeEscape {c : Char} {rest left : List Char}
    (hread : decodeEscape rest = .ok (c, left)) :
    ∃ escaped, rest = escaped ++ left ∧ Denotes ('\\' :: escaped) c := by
  cases rest with
  | nil => cases hread
  | cons marker rest =>
      unfold decodeEscape at hread
      dsimp only at hread
      split at hread
      · next found hplain =>
          obtain ⟨rfl, rfl⟩ := Prod.mk.inj (Except.ok.inj hread)
          exact ⟨[marker], rfl, plainEscape?_cases hplain⟩
      · split at hread
        · next width hwidth =>
            obtain ⟨digits, rfl, hunit⟩ :=
              denotes_of_decodeNumeric hwidth hread
            exact ⟨marker :: digits, rfl, hunit⟩
        · cases hread

/-- A body that is decoded is made up of units. -/
theorem denotesAll_of_decodeFrom {done s : String} {body : List Char}
    (hread : decodeFrom done body = .ok s) :
    ∃ chars, DenotesAll body chars ∧ s = done ++ String.ofList chars := by
  fun_induction decodeFrom done body with
  | case1 done =>
      obtain rfl := Except.ok.inj hread
      exact ⟨[], .nil, by simp⟩
  | case2 done rest decoded left hescape ih =>
      obtain ⟨chars, hchars, rfl⟩ := ih hread
      obtain ⟨escaped, rfl, hunit⟩ := denotes_of_decodeEscape hescape
      exact ⟨decoded :: chars, hchars.cons hunit, by simp [← String.toList_inj]⟩
  | case3 done rest cause hescape => cases hread
  | case4 done c rest hplain ih =>
      obtain ⟨chars, hchars, rfl⟩ := ih hread
      exact ⟨c :: chars, hchars.cons (.plain hplain),
        by simp [← String.toList_inj]⟩

end Soundness

section Completeness

theorem decodeFrom_backslash {c : Char} {rest left : List Char}
    (hread : decodeEscape rest = .ok (c, left)) (done : String) :
    decodeFrom done ('\\' :: rest) = decodeFrom (done.push c) left := by
  rw [decodeFrom, if_pos rfl]
  split
  · next found others hfound =>
      rw [hread] at hfound
      obtain ⟨rfl, rfl⟩ := Prod.mk.inj (Except.ok.inj hfound)
      rfl
  · next cause hfails =>
      rw [hread] at hfails
      cases hfails

theorem decodeEscape_numeric {marker c : Char} {digits : List Char}
    {values : List Nat}
    (hwidth : (marker, digits.length) ∈ [('x', 2), ('u', 4), ('U', 8)])
    (hdigits : List.Forall₂ IsHexDigit digits values)
    (hcode : Nat.ofDigits 16 values.reverse = c.toNat) (rest : List Char) :
    decodeEscape (marker :: (digits ++ rest)) = .ok (c, rest) := by
  have hnumber : hexNumber? digits = some c.toNat :=
    (hexNumber?_eq_some_iff digits _).mpr ⟨values, hdigits, hcode⟩
  have hmarker := (escapeWidth?_eq_some_iff marker _).mpr hwidth
  have hnotPlain : plainEscape? marker = none := by
    simp only [List.mem_cons, Prod.mk.injEq, List.not_mem_nil,
      or_false] at hwidth
    rcases hwidth with ⟨rfl, _⟩ | ⟨rfl, _⟩ | ⟨rfl, _⟩ <;> rfl
  simp [decodeEscape, hnotPlain, hmarker, decodeNumeric, hnumber,
    charOf?_toNat]

/-- A unit is decoded as what it stands for, whatever follows it. -/
theorem Denotes.decodeFrom {written : List Char} {c : Char}
    (hunit : Denotes written c) (done : String) (rest : List Char) :
    decodeFrom done (written ++ rest) = decodeFrom (done.push c) rest := by
  cases hunit with
  | plain hc => rw [List.singleton_append, Quoted.decodeFrom, if_neg hc]
  | newline | carriageReturn | tab | backslash | quotationMark =>
      exact decodeFrom_backslash rfl done
  | numeric hwidth hdigits hcode =>
      exact decodeFrom_backslash
        (decodeEscape_numeric hwidth hdigits hcode rest) done

theorem DenotesAll.decodeFrom {body chars : List Char} (hbody : DenotesAll body chars)
    (done : String) :
    decodeFrom done body = .ok (done ++ String.ofList chars) := by
  obtain ⟨units, hunits, rfl, rfl⟩ := hbody
  induction units generalizing done with
  | nil => simp [Quoted.decodeFrom]
  | cons unit units ih =>
      obtain ⟨hunit, hothers⟩ := List.forall_mem_cons.mp hunits
      rw [List.flatMap_cons, hunit.decodeFrom, ih _ hothers]
      simp [← String.toList_inj]

end Completeness

theorem decode_eq_ok_iff (body s : String) :
    decode body = .ok s ↔ DenotesAll body.toList s.toList := by
  constructor
  · intro hread
    obtain ⟨chars, hchars, rfl⟩ := denotesAll_of_decodeFrom hread
    simpa using hchars
  · intro hbody
    rw [decode, hbody.decodeFrom]
    simp

end Quoted

/-- Decoding gives what the units of a body stand for.  A string whose body is
not made up of units is refused, at its place, wherever a form may begin. -/
theorem escapes_decoded (body : String) (place : Location) :
    (∀ s, Quoted.decode body = .ok s ↔
      Quoted.DenotesAll body.toList s.toList) ∧
    ((∀ s, ¬ Quoted.DenotesAll body.toList s) →
      ∃ cause, cause.kind = .invalidEscape ∧
        Quoted.decode body = .error cause ∧
        (∀ reader : Reader, reader.ending = none →
          reader.stack.length < maxNesting →
          reader.step ⟨.str body, place⟩ = .error ⟨cause, some place⟩) ∧
        ∀ (depth : Nat) (rest : List Token), depth < maxNesting →
          readForm depth (⟨.str body, place⟩ :: rest) =
            .failed ⟨cause, some place⟩ rest) := by
  refine ⟨Quoted.decode_eq_ok_iff body, fun hnone => ?_⟩
  cases hread : Quoted.decode body with
  | ok s => exact absurd ((Quoted.decode_eq_ok_iff body s).mp hread) (hnone _)
  | error cause =>
      refine ⟨cause, Quoted.decodeFrom_fault hread, rfl, ?_, ?_⟩
      · intro reader hending hdepth
        rw [Reader.step_enter hending (by simp) (by simp)]
        simp [Reader.enter, Nat.not_le.mpr hdepth, hread]
      · intro depth rest hdepth
        rw [readForm, if_neg (Nat.not_le.mpr hdepth)]
        simp [hread]

/-- Escapes of either case and every width, and an escape that names no
character. -/
theorem escapes_decoded_up_to_surrogate :
    Quoted.DenotesAll "\\xe9\\U0001F600\\u03BBa".toList ['é', '😀', 'λ', 'a'] ∧
    (∀ s, ¬ Quoted.DenotesAll "a\\uD800".toList s) ∧
    ∃ cause, cause.kind = .invalidEscape ∧
      Quoted.decode "a\\uD800" = .error cause ∧
      Reader.start.step ⟨.str "a\\uD800", ⟨"page", 1, 1⟩⟩ =
        .error ⟨cause, some ⟨"page", 1, 1⟩⟩ := by
  have hdecoded : Quoted.decode "\\xe9\\U0001F600\\u03BBa" = .ok "é😀λa" := by
    cbv
  have hrefused : Quoted.decode "a\\uD800" =
      .error (.noSuchCharacter 'u' "D800") := by cbv
  obtain ⟨hgood, -⟩ := escapes_decoded "\\xe9\\U0001F600\\u03BBa" ⟨"page", 1, 1⟩
  obtain ⟨hbad, hfails⟩ := escapes_decoded "a\\uD800" ⟨"page", 1, 1⟩
  have hnone : ∀ s, ¬ Quoted.DenotesAll "a\\uD800".toList s := by
    intro s hs
    have hread := (hbad (String.ofList s)).mpr (by simpa using hs)
    rw [hrefused] at hread
    cases hread
  obtain ⟨cause, hkind, hcause, hreader, -⟩ := hfails hnone
  exact ⟨(hgood _).mp hdecoded, hnone, cause, hkind, hcause,
    hreader Reader.start rfl (by decide)⟩

end Lisp
