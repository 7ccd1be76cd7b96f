import Mathlib

/-!
The order of names.  Names are ordered by their characters, and that is the order
of their bytes in UTF-8 as well: the first byte of a character tells how long it
is, longer characters begin with greater bytes, and the bytes that follow are the
digits of its number.
-/

namespace Lisp

/-- The bytes of a text in UTF-8. -/
def utf8Bytes (s : String) : List UInt8 :=
  s.toByteArray.data.toList

theorem utf8Bytes_eq (s : String) :
    utf8Bytes s = s.toList.flatMap String.utf8EncodeChar := by
  rw [utf8Bytes, ← String.utf8Encode_toList, List.utf8Encode,
    List.data_toByteArray]

/-- Whether one list of bytes is less than another at a byte that both have,
those before it being the same. -/
inductive ByteBelow : List UInt8 → List UInt8 → Prop where
  | here {x y : UInt8} {xs ys : List UInt8} (hless : x < y) :
      ByteBelow (x :: xs) (y :: ys)
  | later (x : UInt8) {xs ys : List UInt8} (hbelow : ByteBelow xs ys) :
      ByteBelow (x :: xs) (x :: ys)

/-- Whatever follows, the order stays. -/
theorem ByteBelow.append_lt {xs ys : List UInt8} (hbelow : ByteBelow xs ys)
    (more others : List UInt8) : xs ++ more < ys ++ others := by
  induction hbelow with
  | here hless => exact List.cons_lt_cons_iff.mpr (.inl hless)
  | later x _ ih => exact List.cons_lt_cons_iff.mpr (.inr ⟨rfl, ih⟩)

theorem byte_lt {m n : Nat} (hless : m < n) (hbyte : n < 256) :
    UInt8.ofNat m < UInt8.ofNat n := by
  rw [UInt8.lt_iff_toNat_lt, UInt8.toNat_ofNat', UInt8.toNat_ofNat']
  omega

/-- The last `count` digits of a number to the base 64, as the bytes of a
character that follow its first. -/
def trailingBytes : Nat → Nat → List UInt8
  | 0, _ => []
  | count + 1, n =>
      UInt8.ofNat (n / 64 ^ count % 64 + 128) :: trailingBytes count n

/-- Numbers that differ in their last digits only are ordered by these. -/
theorem trailingBytes_below {count m n : Nat} (hless : m < n)
    (hsame : m / 64 ^ count = n / 64 ^ count) :
    ByteBelow (trailingBytes count m) (trailingBytes count n) := by
  induction count with
  | zero =>
      rw [pow_zero, Nat.div_one, Nat.div_one] at hsame
      exact absurd hsame (Nat.ne_of_lt hless)
  | succ count ih =>
      rw [pow_succ, ← Nat.div_div_eq_div_mul, ← Nat.div_div_eq_div_mul] at hsame
      have hle : m / 64 ^ count ≤ n / 64 ^ count :=
        Nat.div_le_div_right (Nat.le_of_lt hless)
      by_cases hdigit : m / 64 ^ count = n / 64 ^ count
      · rw [trailingBytes, trailingBytes, hdigit]
        exact .later _ (ih hdigit)
      · exact .here (byte_lt (by omega) (by omega))

/-- A character as its bytes: the first gives the number of those that follow and
the leading digits of the number of the character. -/
theorem utf8EncodeChar_eq (c : Char) : ∃ count mark,
    String.utf8EncodeChar c =
      UInt8.ofNat (mark + c.toNat / 64 ^ count) :: trailingBytes count c.toNat ∧
    ((count = 0 ∧ mark = 0 ∧ c.toNat < 0x80) ∨
      (count = 1 ∧ mark = 0xC0 ∧ 0x80 ≤ c.toNat ∧ c.toNat < 0x800) ∨
      (count = 2 ∧ mark = 0xE0 ∧ 0x800 ≤ c.toNat ∧ c.toNat < 0x10000) ∨
      (count = 3 ∧ mark = 0xF0 ∧ 0x10000 ≤ c.toNat ∧ c.toNat < 0x110000)) := by
  have hmax : c.toNat < 0x110000 := by
    have hvalid : c.toNat < 0xD800 ∨ 0xDFFF < c.toNat ∧ c.toNat < 0x110000 :=
      c.valid
    omega
  -- the leading digits fit in what the mark leaves of the first byte
  have hlead : ∀ mark digits bound : Nat, digits < bound →
      UInt8.ofNat (digits % bound + mark) = UInt8.ofNat (mark + digits) := by
    intro mark digits bound hfits
    rw [Nat.mod_eq_of_lt hfits, Nat.add_comm]
  have hnumber : c.val.toNat = c.toNat := rfl
  simp only [String.utf8EncodeChar, hnumber]
  split_ifs with hone htwo hthree
  · refine ⟨0, 0, ?_, by omega⟩
    rw [pow_zero, Nat.div_one, Nat.zero_add]
    rfl
  · refine ⟨1, 0xC0, ?_, by omega⟩
    rw [← hlead 0xC0 _ 32 (by omega)]
    simp [trailingBytes]
  · refine ⟨2, 0xE0, ?_, by omega⟩
    rw [← hlead 0xE0 _ 16 (by omega)]
    simp [trailingBytes]
  · refine ⟨3, 0xF0, ?_, by omega⟩
    rw [← hlead 0xF0 _ 8 (by omega)]
    simp [trailingBytes]

/-- Characters are ordered as their bytes, and none is the beginning of
another. -/
theorem utf8EncodeChar_below {c d : Char} (hless : c < d) :
    ByteBelow (String.utf8EncodeChar c) (String.utf8EncodeChar d) := by
  have hnumbers : c.toNat < d.toNat := hless
  obtain ⟨count, mark, hc, hshape⟩ := utf8EncodeChar_eq c
  obtain ⟨more, other, hd, hshapeToo⟩ := utf8EncodeChar_eq d
  rw [hc, hd]
  by_cases hsame : count = more ∧ c.toNat / 64 ^ count = d.toNat / 64 ^ count
  · obtain ⟨rfl, hdigits⟩ := hsame
    obtain rfl : mark = other := by omega
    rw [hdigits]
    exact .later _ (trailingBytes_below hnumbers hdigits)
  · have hle : c.toNat / 64 ^ count ≤ d.toNat / 64 ^ count :=
      Nat.div_le_div_right (Nat.le_of_lt hnumbers)
    rcases hshape with ⟨rfl, rfl, hc⟩ | ⟨rfl, rfl, hc⟩ | ⟨rfl, rfl, hc⟩ |
        ⟨rfl, rfl, hc⟩ <;>
      rcases hshapeToo with ⟨rfl, rfl, hd⟩ | ⟨rfl, rfl, hd⟩ | ⟨rfl, rfl, hd⟩ |
        ⟨rfl, rfl, hd⟩ <;>
      exact .here (byte_lt (by omega) (by omega))

theorem utf8_flatMap_lt {s t : List Char} (hless : s < t) :
    s.flatMap String.utf8EncodeChar < t.flatMap String.utf8EncodeChar := by
  have hlex : List.Lex (· < ·) s t := hless
  induction hlex with
  | @nil c rest =>
      obtain ⟨count, mark, hc, -⟩ := utf8EncodeChar_eq c
      rw [List.flatMap_nil, List.flatMap_cons, hc, List.cons_append]
      exact List.nil_lt_cons _ _
  | rel hchars =>
      rw [List.flatMap_cons, List.flatMap_cons]
      exact (utf8EncodeChar_below hchars).append_lt _ _
  | cons hrest ih =>
      rw [List.flatMap_cons, List.flatMap_cons]
      exact List.append_left_lt (ih hrest)

/-- Texts are ordered as their bytes in UTF-8. -/
theorem utf8Bytes_lt {s t : String} (hless : s < t) :
    utf8Bytes s < utf8Bytes t := by
  rw [utf8Bytes_eq, utf8Bytes_eq]
  exact utf8_flatMap_lt (String.lt_iff_toList_lt.mp hless)

end Lisp
