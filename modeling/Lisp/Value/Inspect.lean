import Lisp.Text.Hidden
import Lisp.Value.Printer

/-!
Values with their kinds spelled out, for diagnostics.
-/

namespace Lisp

variable {H : Type}

/-- A character inside an inspected string; characters that do not show are
given by number. -/
def inspectChar (c : Char) : String :=
  if c = '\x00' then "\\0"
  else if c = '\t' then "\\t"
  else if c = '\r' then "\\r"
  else if c = '\n' then "\\n"
  else if c = '\\' then "\\\\"
  else if c = '"' then "\\\""
  else if isHidden c then
    "\\u\x7b" ++ String.ofList (Nat.toDigits 16 c.toNat) ++ "\x7d"
  else
    String.singleton c

/-- An inspected string. -/
def inspectString (s : String) : String :=
  "\"" ++ String.join (s.toList.map inspectChar) ++ "\""

/-- An inspected list of names. -/
def inspectNames (names : List String) : String :=
  "[" ++ String.intercalate ", " (names.map inspectString) ++ "]"

/-- A value with its kind spelled out.  Lists are shown in source form. -/
def Value.inspect : Value H → String
  | .nil => "Nil"
  | .bool b => "Bool(" ++ (if b then "true" else "false") ++ ")"
  | .int n => "Int(" ++ toString n.toInt ++ ")"
  | .big n => "Bigint(" ++ toString n ++ ")"
  | .float x => "Float(" ++ floatFormat.text x ++ ")"
  | .str s => "Str(" ++ inspectString s ++ ")"
  | .ref name _ => "Reference(" ++ name ++ ")"
  | .pair id car cdr place => "Pair" ++ (Value.pair id car cdr place).text
  | .closure _ params body _ =>
      "Closure(params=" ++ inspectNames params ++ ", body=" ++ body.inspect ++ ")"
  | .expander _ params body =>
      "Macro(params=" ++ inspectNames params ++ ", body=" ++ body.inspect ++ ")"
  | .native proc => "NativeProc(" ++ proc.name ++ ")"

/-- An arity with its kind spelled out. -/
def Arity.inspect : Arity → String
  | .exact count => "Exact(" ++ toString count ++ ")"
  | .atLeast count => "AtLeast(" ++ toString count ++ ")"
  | .any => "Any"

/-- A native procedure with its declaration. -/
def Native.inspect (proc : Native H) : String :=
  "NativeProc \x7b name: " ++ inspectString proc.name ++
    ", arity: " ++ proc.arity.inspect ++
    ", evaluate_args: " ++ (if proc.evaluatesOperands then "true" else "false") ++
    ", .. \x7d"

end Lisp
