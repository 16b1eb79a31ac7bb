import ObjectStore.Value

/-!
# Failures

Every operation fails with one of these causes. A failure that comes from a backend may carry a race: the one thing that retrying ever looks at.
-/

namespace ObjectStore

/-- A backend failure that is safe to recover from by running the operation again. -/
inductive Race where
  /-- A freshly generated identifier is already taken. -/
  | duplicateId
  /-- A concurrent writer created the same table or column first. -/
  | duplicateTable
  /-- A serialization failure, a deadlock or a transient transaction error. -/
  | conflict
deriving DecidableEq, Inhabited

/-- The causes of failure. -/
inductive Failure where
  /-- No class was named. -/
  | classNotSet
  /-- No record has the wanted id. -/
  | objectNotFound (id className : String)
  /-- An operation needs an id and got none, or an id of a kind that cannot be one. -/
  | invalidObjectId
  /-- A value has no form in the target format. -/
  | unsupportedType (kind : Value.Kind) (reason : String)
  /-- A predicate, an update or another request has no meaning for the backend. -/
  | unsupportedOperation (reason : String)
  /-- A value could not be read as an instant. -/
  | invalidDateFormat (text : String)
  /-- Malformed data crossed a codec. -/
  | serialization (reason : String)
  /-- The backend failed with the given text, recognized as a race or not. -/
  | backend (race : Option Race) (source : String)
deriving DecidableEq, Inhabited

/-- The result of an operation. -/
abbrev Outcome (α : Type u) := Except Failure α

namespace Failure

def race? : Failure → Option Race
  | backend race _ => race
  | _ => none

def message : Failure → String
  | classNotSet => "Class not set"
  | objectNotFound id name => s!"Object {id} not found in class {name}"
  | invalidObjectId => "Invalid object id"
  | unsupportedType kind reason => "Unsupported type " ++ kind.name ++ ": " ++ reason
  | unsupportedOperation reason => s!"Unsupported operation: {reason}"
  | invalidDateFormat text => s!"Invalid date format: {text}"
  | serialization reason => s!"Serialization error: {reason}"
  | backend _ source => s!"Driver error: {source}"

end Failure

/-- Continues after a step that succeeded. -/
def andThen {m : Type → Type u} [Monad m] {α β : Type} (step : m (Outcome α)) (next : α → m (Outcome β)) :
    m (Outcome β) := do
  match ← step with
  | .ok a => next a
  | .error failure => pure (.error failure)

def proceed {m : Type → Type u} [Monad m] {α β : Type} (result : Outcome α) (next : α → m (Outcome β)) :
    m (Outcome β) :=
  match result with
  | .ok a => next a
  | .error failure => pure (.error failure)

def checked {m : Type → Type u} [Monad m] {β : Type} (check : Outcome Unit) (next : m (Outcome β)) : m (Outcome β) :=
  proceed check fun _ => next

def Value.toStringOutcome : Value → Outcome String
  | .string text => .ok text
  | other => .error (.unsupportedType other.kind "expected a string")

end ObjectStore
