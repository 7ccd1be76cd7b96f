import Lisp.Location

/-!
Everything that can go wrong while reading or evaluating.  A fault is a cause
together with the place it is blamed on; the wording of every report stands in
`Cause.message` alone.
-/

namespace Lisp

/-- The category a fault belongs to. -/
inductive FaultKind where
  | undefinedName
  | wrongArity
  | typeMismatch
  | divisionByZero
  | notCallable
  | malformedSpecialForm
  | stackOverflow
  | internalShape
  | unclosedParenthesis
  | unterminatedString
  | invalidEscape
  | unexpectedToken
  | io
  deriving Repr, DecidableEq, Inhabited

/-- The name reports open with. -/
def FaultKind.name : FaultKind → String
  | .undefinedName => "UndefinedName"
  | .wrongArity => "WrongArity"
  | .typeMismatch => "TypeMismatch"
  | .divisionByZero => "DivisionByZero"
  | .notCallable => "NotCallable"
  | .malformedSpecialForm => "MalformedSpecialForm"
  | .stackOverflow => "StackOverflow"
  | .internalShape => "InternalShapeError"
  | .unclosedParenthesis => "UnclosedParenthesis"
  | .unterminatedString => "UnterminatedString"
  | .invalidEscape => "InvalidEscape"
  | .unexpectedToken => "UnexpectedToken"
  | .io => "Io"

/-- All kinds of fault. -/
def FaultKind.all : List FaultKind :=
  [.undefinedName, .wrongArity, .typeMismatch, .divisionByZero, .notCallable,
    .malformedSpecialForm, .stackOverflow, .internalShape,
    .unclosedParenthesis, .unterminatedString, .invalidEscape,
    .unexpectedToken, .io]

/-- The kind that goes by `name`. -/
def FaultKind.find? (name : String) : Option FaultKind :=
  FaultKind.all.find? fun kind => kind.name == name

/-- What is wrong with the operands of a special form. -/
inductive FormProblem where
  /-- The parameters are not a proper list. -/
  | parametersNotList (shown : String)
  /-- A parameter is not a name. -/
  | parameterNotName (shown : String)
  /-- A parameter is named twice. -/
  | parameterRepeated (name : String)
  /-- The thing to bind is not a name but of the given type. -/
  | nameExpected (type : String)
  /-- A problem worded by the host program. -/
  | reported (message : String)
  deriving Repr, DecidableEq

/-- The wording of a problem with a special form. -/
def FormProblem.message : FormProblem → String
  | .parametersNotList shown => "parameters must be a list, got " ++ shown
  | .parameterNotName shown => "parameters must be names, got " ++ shown
  | .parameterRepeated name => "duplicate parameter name " ++ name
  | .nameExpected type => "expected a name, got " ++ type
  | .reported message => message

/-- Why reading or evaluation stopped.  Values appear only as the text or the
type name that the report shows. -/
inductive Cause where
  | undefinedName (name : String)
  | wrongArity (expected : String) (got : Nat)
  | cannotCombine (verb left right : String)
  | cannotOrder (left right : String)
  | cannotCompare (left right : String)
  | pairExpected (type : String)
  | boolExpected (type : String)
  | divisionByZero
  | notCallable (type shown : String)
  | malformed (form : String) (problem : FormProblem)
  | dottedCall (shown : String)
  | evaluationTooDeep (limit : Nat)
  | nestingTooDeep (limit : Nat)
  | unclosedList
  | unterminatedString
  | unreadable (near : String)
  | shortEscape (marker : Char) (width : Nat) (digits : String)
  | noSuchCharacter (marker : Char) (digits : String)
  | unknownEscape (marker : Char)
  | trailingBackslash
  | strayClose
  | strayDot
  | dotBeforeElement
  | dotWithoutTail
  | elementAfterTail
  | nothingToQuote
  | unexpectedEnd
  | displayFailed (reason : String)
  /-- A failure worded by the host program. -/
  | reported (kind : FaultKind) (message : String)
  deriving Repr, DecidableEq

/-- The category of a cause. -/
def Cause.kind : Cause → FaultKind
  | .undefinedName _ => .undefinedName
  | .wrongArity _ _ => .wrongArity
  | .cannotCombine _ _ _ | .cannotOrder _ _ | .cannotCompare _ _
  | .pairExpected _ | .boolExpected _ => .typeMismatch
  | .divisionByZero => .divisionByZero
  | .notCallable _ _ => .notCallable
  | .malformed _ _ => .malformedSpecialForm
  | .dottedCall _ => .internalShape
  | .evaluationTooDeep _ | .nestingTooDeep _ => .stackOverflow
  | .unclosedList => .unclosedParenthesis
  | .unterminatedString => .unterminatedString
  | .shortEscape _ _ _ | .noSuchCharacter _ _ | .unknownEscape _
  | .trailingBackslash => .invalidEscape
  | .unreadable _ | .strayClose | .strayDot | .dotBeforeElement
  | .dotWithoutTail | .elementAfterTail | .nothingToQuote | .unexpectedEnd =>
      .unexpectedToken
  | .displayFailed _ => .io
  | .reported kind _ => kind

/-- The wording of a cause. -/
def Cause.message : Cause → String
  | .undefinedName name => "Name \"" ++ name ++ "\" undefined"
  | .wrongArity expected got =>
      "Expected " ++ expected ++ " arguments, got " ++ toString got
  | .cannotCombine verb left right =>
      "Can't " ++ verb ++ " types " ++ left ++ " and " ++ right
  | .cannotOrder left right =>
      "Can't compare types " ++ left ++ " and " ++ right
  | .cannotCompare left right => "Can't compare " ++ left ++ " and " ++ right
  | .pairExpected type => "Expected cons, got " ++ type
  | .boolExpected type => "if condition must be a bool, got " ++ type
  | .divisionByZero => "Division by zero"
  | .notCallable type shown => "Cannot apply " ++ type ++ " " ++ shown
  | .malformed form problem =>
      "Malformed " ++ form ++ ": " ++ problem.message
  | .dottedCall shown => "Cannot evaluate dotted form " ++ shown
  | .evaluationTooDeep limit =>
      "Evaluation depth limit exceeded (max: " ++ toString limit ++ ")"
  | .nestingTooDeep limit =>
      "Expression too deeply nested (max depth: " ++ toString limit ++ ")"
  | .unclosedList => "Missing ')'"
  | .unterminatedString => "Unterminated string literal"
  | .unreadable near => "Invalid syntax near '" ++ near ++ "'"
  | .shortEscape marker width digits =>
      "Escape \\" ++ marker.toString ++ " needs " ++ toString width ++
        " hex digits, got \"" ++ digits ++ "\""
  | .noSuchCharacter marker digits =>
      "\\" ++ marker.toString ++ digits ++ " is not a character"
  | .unknownEscape marker => "Unknown escape sequence \\" ++ marker.toString
  | .trailingBackslash => "Trailing backslash in string"
  | .strayClose => "Unexpected ')'"
  | .strayDot => "Unexpected '.' outside a list"
  | .dotBeforeElement => "Expected an element before '.'"
  | .dotWithoutTail => "Expected an element after '.'"
  | .elementAfterTail => "Expected ')' after dotted tail"
  | .nothingToQuote => "Nothing to quote at end of input"
  | .unexpectedEnd => "Unexpected end of input"
  | .displayFailed reason => "display failed: " ++ reason
  | .reported _ message => message

/-- A cause and the place it is blamed on, once one is known. -/
structure Fault where
  cause : Cause
  place : Option Location := none
  deriving Repr, DecidableEq

/-- The category of a fault. -/
def Fault.kind (fault : Fault) : FaultKind :=
  fault.cause.kind

/-- The wording of a fault, without its place. -/
def Fault.message (fault : Fault) : String :=
  fault.cause.message

/-- Blame the fault on `place`, unless it is already blamed on one: the
innermost place wins. -/
def Fault.orAt (fault : Fault) (place : Option Location) : Fault :=
  { fault with place := fault.place.or place }

/-- A whole report: kind, message and, on a second line, the place. -/
def Fault.text (fault : Fault) : String :=
  fault.kind.name ++ ": " ++ fault.message ++
    match fault.place with
    | none => ""
    | some place => "\n  At " ++ place.text

@[simp] theorem Fault.orAt_cause (fault : Fault) (place : Option Location) :
    (fault.orAt place).cause = fault.cause := rfl

@[simp] theorem Fault.orAt_place (fault : Fault) (place : Option Location) :
    (fault.orAt place).place = fault.place.or place := rfl

@[simp] theorem Fault.orAt_kind (fault : Fault) (place : Option Location) :
    (fault.orAt place).kind = fault.kind := rfl

@[simp] theorem Fault.orAt_message (fault : Fault) (place : Option Location) :
    (fault.orAt place).message = fault.message := rfl

@[simp] theorem Fault.orAt_orAt (fault : Fault) (first second : Option Location) :
    (fault.orAt first).orAt second = fault.orAt (first.or second) := by
  simp [Fault.orAt, Option.or_assoc]

end Lisp
