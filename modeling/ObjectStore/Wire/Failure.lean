import ObjectStore.Wire.Query

/-!
# Failures on the wire

A failure is an object with the name of its cause and its wording; a failure of a backend also tells its race, if it is one.
-/

namespace ObjectStore

namespace Wire

def causeName : Failure → String
  | .classNotSet => "ClassNotSet"
  | .objectNotFound _ _ => "ObjectNotFound"
  | .invalidObjectId => "InvalidObjectId"
  | .unsupportedType _ _ => "UnsupportedType"
  | .unsupportedOperation _ => "UnsupportedOperation"
  | .invalidDateFormat _ => "InvalidDateFormat"
  | .serialization _ => "Serialization"
  | .backend _ _ => "Driver"

def raceOf (failure : Failure) : Json := ofOption races.write failure.race?

/-- The members of a failure without its wording. -/
def causeOf (failure : Failure) : List (String × Json) :=
  ("error", .string (causeName failure)) ::
    match failure with
    | .backend _ _ => [("race", raceOf failure)]
    | _ => []

def ofCause (failure : Failure) : Json := .object (causeOf failure)

def ofFailure (failure : Failure) : Json := .object (("message", .string failure.message) :: causeOf failure)

/-- A failure by the name of its cause and its texts; a kind of values is named by a value of it. -/
def failure : Reader Failure := fun json => do
  match ← member "kind" text json, (member "args" texts json).getD [] with
  | "ClassNotSet", _ => return .classNotSet
  | "ObjectNotFound", [id, className] => return .objectNotFound id className
  | "InvalidObjectId", _ => return .invalidObjectId
  | "UnsupportedType", [reason] => return .unsupportedType (← member "of" value json).kind reason
  | "UnsupportedOperation", [reason] => return .unsupportedOperation reason
  | "InvalidDateFormat", [text] => return .invalidDateFormat text
  | "Serialization", [reason] => return .serialization reason
  | _, [source] => return .backend none source
  | _, [race, source] => return .backend (← races.read (.string race)) source
  | _, _ => none

end Wire

end ObjectStore
