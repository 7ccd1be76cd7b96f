import Lisp.Fault

/-!
String literals.  `encode` writes the body of a literal in plain ASCII, and
`decode` reads the escapes of a body: `\n`, `\r`, `\t`, `\\`, `\"`, and `\x`,
`\u`, `\U` with two, four and eight hexadecimal digits.
-/

namespace Lisp.Quoted

/-- The upper-case hexadecimal digit of a number below sixteen. -/
def hexDigit (n : Nat) : Char :=
  Char.ofNat (if n < 10 then n + 48 else n + 55)

/-- The last `width` hexadecimal digits of a number. -/
def hexDigits : Nat → Nat → List Char
  | 0, _ => []
  | width + 1, n => hexDigits width (n / 16) ++ [hexDigit (n % 16)]

/-- How a character is written inside a literal. -/
def encodeChar (c : Char) : List Char :=
  if c = '"' then ['\\', '"']
  else if c = '\\' then ['\\', '\\']
  else if c = '\n' then ['\\', 'n']
  else if c = '\t' then ['\\', 't']
  else if c = '\r' then ['\\', 'r']
  else if 0x20 ≤ c.toNat ∧ c.toNat < 0x7F then [c]
  else if c.toNat ≤ 0xFF then '\\' :: 'x' :: hexDigits 2 c.toNat
  else if c.toNat ≤ 0xFFFF then '\\' :: 'u' :: hexDigits 4 c.toNat
  else '\\' :: 'U' :: hexDigits 8 c.toNat

/-- A string as a literal, with its quotation marks. -/
def encode (s : String) : String :=
  "\"" ++ String.ofList (s.toList.flatMap encodeChar) ++ "\""

/-- The number a hexadecimal digit of either case stands for. -/
def hexValue? (c : Char) : Option Nat :=
  if '0' ≤ c ∧ c ≤ '9' then some (c.toNat - 48)
  else if 'A' ≤ c ∧ c ≤ 'F' then some (c.toNat - 55)
  else if 'a' ≤ c ∧ c ≤ 'f' then some (c.toNat - 87)
  else none

/-- The number a run of hexadecimal digits stands for. -/
def hexNumber? (digits : List Char) : Option Nat :=
  digits.foldlM (fun n c => (hexValue? c).map (16 * n + ·)) 0

/-- The character with a code point, unless it is a surrogate or too large. -/
def charOf? (n : Nat) : Option Char :=
  if hvalid : n.isValidChar then some (Char.ofNatAux n hvalid) else none

/-- Read the digits of a numeric escape and the character they name. -/
def decodeNumeric (marker : Char) (width : Nat) (rest : List Char) :
    Except Cause (Char × List Char) :=
  let digits := rest.take width
  match if digits.length = width then hexNumber? digits else none with
  | none => .error (.shortEscape marker width (String.ofList digits))
  | some n =>
      match charOf? n with
      | none => .error (.noSuchCharacter marker (String.ofList digits))
      | some c => .ok (c, rest.drop width)

/-- The character a one-letter escape stands for. -/
def plainEscape? : Char → Option Char
  | 'n' => some '\n'
  | 'r' => some '\r'
  | 't' => some '\t'
  | '\\' => some '\\'
  | '"' => some '"'
  | _ => none

/-- How many digits a numeric escape takes. -/
def escapeWidth? : Char → Option Nat
  | 'x' => some 2
  | 'u' => some 4
  | 'U' => some 8
  | _ => none

/-- Read what follows a backslash: the character it stands for and the rest of
the body. -/
def decodeEscape : List Char → Except Cause (Char × List Char)
  | [] => .error .trailingBackslash
  | marker :: rest =>
      match plainEscape? marker with
      | some c => .ok (c, rest)
      | none =>
          match escapeWidth? marker with
          | some width => decodeNumeric marker width rest
          | none => .error (.unknownEscape marker)

theorem decodeNumeric_length {marker : Char} {width : Nat}
    {rest left : List Char} {c : Char}
    (hread : decodeNumeric marker width rest = .ok (c, left)) :
    left.length ≤ rest.length := by
  unfold decodeNumeric at hread
  dsimp only at hread
  split at hread
  · cases hread
  · split at hread
    · cases hread
    · cases hread
      simp

/-- An escape uses up at least one character after the backslash. -/
theorem decodeEscape_length {rest left : List Char} {c : Char}
    (hread : decodeEscape rest = .ok (c, left)) :
    left.length < rest.length := by
  cases rest with
  | nil => cases hread
  | cons marker rest =>
      unfold decodeEscape at hread
      dsimp only at hread
      split at hread
      · cases hread
        simp
      · split at hread
        · exact Nat.lt_succ_of_le (decodeNumeric_length hread)
        · cases hread

/-- Read a body whose characters up to here stand for `done`. -/
def decodeFrom (done : String) : List Char → Except Cause String
  | [] => .ok done
  | c :: rest =>
      if c = '\\' then
        match _read : decodeEscape rest with
        | .ok (decoded, left) => decodeFrom (done.push decoded) left
        | .error cause => .error cause
      else
        decodeFrom (done.push c) rest
termination_by body => body.length
decreasing_by
  · have hshorter := decodeEscape_length _read
    simp only [List.length_cons]
    omega
  · simp

/-- The string that the body of a literal stands for. -/
def decode (body : String) : Except Cause String :=
  decodeFrom "" body.toList

end Lisp.Quoted
