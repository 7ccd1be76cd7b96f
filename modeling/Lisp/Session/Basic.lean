import Lisp.Scope.Forest
import Lisp.Value.Printer

/-!
The state of a session: all scopes, the depth limit and the depth reached, what
has been displayed, and a record of what happened.
-/

namespace Lisp

variable {H : Type}

/-- How many evaluations may be under way at once, unless a session is told
otherwise. -/
def defaultLimit : Nat := 512

/-- What becomes of a line that is displayed. -/
inductive Reception where
  | taken
  /-- No more of the line than its first characters gets through. -/
  | refused (length : Nat) (reason : String)
  /-- The line gets through, but is not passed on. -/
  | unflushed (reason : String)
  deriving Repr, DecidableEq

/-- How much of a line gets through. -/
def Reception.part (line : String) : Reception → String
  | .refused length _ => String.ofList (line.toList.take length)
  | .taken | .unflushed _ => line

/-- Why displaying a line fails. -/
def Reception.refusal? : Reception → Option String
  | .taken => none
  | .refused _ reason | .unflushed reason => some reason

/-- Where displayed lines go.  What becomes of the first lines is written out; a
sink may refuse all later ones, or take each of them and then refuse to pass it
on. -/
structure Sink where
  script : List Reception := []
  writeRefusal : Option String := none
  flushRefusal : Option String := none
  deriving Repr, DecidableEq, Inhabited

/-- What becomes of the next line. -/
def Sink.reception (sink : Sink) : Reception :=
  match sink.script, sink.writeRefusal, sink.flushRefusal with
  | reception :: _, _, _ => reception
  | [], some reason, _ => .refused 0 reason
  | [], none, some reason => .unflushed reason
  | [], none, none => .taken

/-- A sink after one more line. -/
def Sink.next (sink : Sink) : Sink :=
  { sink with script := sink.script.tail }

/-- How much detail a log entry is about. -/
inductive LogLevel where
  | debug
  | trace
  deriving Repr, DecidableEq, Inhabited

/-- A line of the log. -/
structure LogEntry where
  level : LogLevel
  message : String
  deriving Repr, DecidableEq, Inhabited

/-- What is worth logging. -/
inductive Event (H : Type) where
  | defined (name : String) (value : Value H)
  | macroDefined (name : String)
  | expanded (form : Value H)
  | registered (name : String)
  | limitReached (limit : Nat) (form : Value H)

/-- The line an event is logged as. -/
def Event.entry : Event H → LogEntry
  | .defined name value => ⟨.debug, "define " ++ name ++ " = " ++ value.text⟩
  | .macroDefined name => ⟨.debug, "defmacro " ++ name⟩
  | .expanded form => ⟨.trace, "macro expanded to " ++ form.text⟩
  | .registered name => ⟨.trace, "registering native procedure " ++ name⟩
  | .limitReached limit form =>
      ⟨.debug, "evaluation depth limit " ++ toString limit ++ " reached at " ++
        form.text⟩

/-- The state of a session. -/
structure Session (H : Type) where
  forest : Forest H
  /-- The scope of top-level forms. -/
  root : ScopeId
  /-- How many evaluations may be under way at once. -/
  limit : Nat
  /-- How many evaluations are under way. -/
  depth : Nat
  sink : Sink
  /-- Everything displayed so far. -/
  output : String
  /-- Whether events are logged. -/
  recording : Bool
  log : Array LogEntry
  /-- How many batches of objects have been made. -/
  batches : Nat

/-- The bindings of a fresh root scope: every builtin under its own name, and
`nil`. -/
def initialBindings : Bindings (Value H) :=
  .ofLists (Builtin.all.map Builtin.name ++ ["nil"])
    (Builtin.all.map (fun op => .native (.builtin op)) ++ [.nil])

theorem initialBindings_cases {name : String} {v : Value H}
    (hfound : initialBindings.get? name = some v) :
    (∃ op, v = .native (.builtin op)) ∨ v = .nil := by
  have hmem := Bindings.mem_of_get?_ofLists hfound
  simp only [List.mem_append, List.mem_map, List.mem_singleton] at hmem
  rcases hmem with ⟨op, -, rfl⟩ | rfl
  · exact .inl ⟨op, rfl⟩
  · exact .inr rfl

namespace Session

/-- A session in which nothing has happened. -/
def fresh (limit : Nat) (sink : Sink) (recording : Bool) : Session H where
  forest := Forest.empty.push ⟨initialBindings, none⟩
  root := ⟨0⟩
  limit := limit
  depth := 0
  sink := sink
  output := ""
  recording := recording
  log := #[]
  batches := 0

/-- Log an event, if the session keeps a log. -/
def record (session : Session H) (event : Event H) : Session H :=
  if session.recording then
    { session with log := session.log.push event.entry }
  else
    session

/-- Open a scope. -/
def openScope (session : Session H) (scope : Scope H) : Session H :=
  { session with forest := session.forest.push scope }

/-- The number the next scope will have. -/
def nextScope (session : Session H) : ScopeId :=
  ⟨session.forest.scopes.size⟩

/-- Bind or rebind a name in one scope. -/
def bind (session : Session H) (scope : ScopeId) (name : String)
    (value : Value H) : Session H :=
  { session with forest := session.forest.set scope name value }

/-- Drop all bindings of one scope. -/
def clear (session : Session H) (scope : ScopeId) : Session H :=
  { session with forest := session.forest.clear scope }

/-- Add a procedure of the host to the root scope. -/
def register (session : Session H) (proc : HostProc H) : Session H :=
  (session.record (.registered proc.name)).bind session.root proc.name
    (.native (.host proc))

/-- Display a line, as far as it gets through. -/
def displayed (session : Session H) (line : String) : Session H :=
  { session with
    sink := session.sink.next
    output := session.output ++ session.sink.reception.part (line ++ "\n") }

/-- Forget what has been displayed and logged. -/
def drain (session : Session H) : Session H :=
  { session with output := "", log := #[] }

/-- End a session: its root scope lets go of everything. -/
def close (session : Session H) : Session H :=
  session.clear session.root

/-- What a fresh session binds: the builtins, and the empty list. -/
theorem fresh_get?_cases {limit : Nat} {sink : Sink} {recording : Bool}
    {id : ScopeId} {name : String} {v : Value H}
    (hfound : (fresh limit sink recording).forest.get? id name = some v) :
    (∃ op, v = .native (.builtin op)) ∨ v = .nil := by
  rw [fresh, Forest.get?_push] at hfound
  split at hfound
  · exact initialBindings_cases hfound
  · simp [Forest.get?, Forest.bindings, Forest.empty] at hfound

end Session

end Lisp
