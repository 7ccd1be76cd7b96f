import Lisp.Session.Basic

/-!
Computations in a session.  A computation ends with a value or a fault, and in
either case with a session; one that was not given enough steps does not end
at all.
-/

namespace Lisp

variable {H α β : Type}

/-- How a computation ends. -/
inductive Outcome (H α : Type) where
  | value (result : α) (session : Session H)
  | fault (fault : Fault) (session : Session H)
  | unfinished

/-- A computation in a session. -/
def Eval (H α : Type) : Type :=
  Session H → Outcome H α

namespace Eval

/-- End at once with a value. -/
@[inline] protected def pure (result : α) : Eval H α :=
  fun session => .value result session

/-- Go on with the value of a computation, unless it failed. -/
@[inline] protected def bind (first : Eval H α) (next : α → Eval H β) :
    Eval H β :=
  fun session =>
    match first session with
    | .value result session => next result session
    | .fault fault session => .fault fault session
    | .unfinished => .unfinished

instance : Monad (Eval H) where
  pure := Eval.pure
  bind := Eval.bind

theorem bind_pure (x : Eval H α) : Eval.bind x Eval.pure = x := by
  funext session
  unfold Eval.bind
  cases x session <;> rfl

theorem bind_assoc {γ : Type} (x : Eval H α) (f : α → Eval H β)
    (g : β → Eval H γ) :
    Eval.bind (Eval.bind x f) g = Eval.bind x fun a => Eval.bind (f a) g := by
  funext session
  unfold Eval.bind
  cases x session <;> rfl

instance : LawfulMonad (Eval H) :=
  LawfulMonad.mk' _ Eval.bind_pure (fun _ _ => rfl) Eval.bind_assoc

/-- End at once with a fault. -/
@[inline] def fail (fault : Fault) : Eval H α :=
  fun session => .fault fault session

/-- A computation that has run out of steps. -/
@[inline] def unfinished : Eval H α :=
  fun _ => .unfinished

/-- The outcome of an operation that does not depend on the session. -/
@[inline] def ofExcept : Except Cause α → Eval H α
  | .ok result => Eval.pure result
  | .error cause => Eval.fail { cause := cause }

/-- What a function of the session answers. -/
@[inline] def read (f : Session H → α) : Eval H α :=
  fun session => .value (f session) session

/-- Change the session. -/
@[inline] def update (f : Session H → Session H) : Eval H Unit :=
  fun session => .value () (f session)

/-- Blame faults that have no place yet on `place`. -/
@[inline] def located (place : Option Location) (x : Eval H α) : Eval H α :=
  fun session =>
    match x session with
    | .value result session => .value result session
    | .fault fault session => .fault (fault.orAt place) session
    | .unfinished => .unfinished

/-- Run a computation one level deeper, and come back up however it ends. -/
@[inline] def deeper (x : Eval H α) : Eval H α :=
  fun session =>
    match x { session with depth := session.depth + 1 } with
    | .value result session =>
        .value result { session with depth := session.depth - 1 }
    | .fault fault session =>
        .fault fault { session with depth := session.depth - 1 }
    | .unfinished => .unfinished

/-- Log an event. -/
def note (event : Event H) : Eval H Unit :=
  update fun session => session.record event

/-- What a name stands for as seen from a scope. -/
def lookup (scope : ScopeId) (name : String) : Eval H (Option (Value H)) :=
  read fun session => session.forest.lookup scope name

/-- The nearest scope that binds a name. -/
def owner? (scope : ScopeId) (name : String) : Eval H (Option ScopeId) :=
  read fun session => session.forest.owner? scope name

/-- Bind or rebind a name in one scope. -/
def assign (scope : ScopeId) (name : String) (value : Value H) :
    Eval H Unit :=
  update fun session => session.bind scope name value

/-- Open a scope around which `parent` lies. -/
def enterScope (parent : ScopeId) (bindings : Bindings (Value H)) :
    Eval H ScopeId :=
  fun session =>
    .value session.nextScope (session.openScope ⟨bindings, some parent⟩)

/-- The number of a new batch of objects. -/
def freshBatch : Eval H Nat :=
  fun session =>
    .value session.batches { session with batches := session.batches + 1 }

/-- Display a line. -/
def emit (line : String) : Eval H Unit :=
  fun session =>
    match session.sink.reception.refusal? with
    | none => .value () (session.displayed line)
    | some reason =>
        .fault { cause := .displayFailed reason } (session.displayed line)

end Eval

end Lisp
