import ObjectStore.Failure

/-!
# Choosing a backend

The scheme of a connection URL names the backend. A backend that this build does not include is refused by name.
-/

namespace ObjectStore

inductive BackendKind where
  | memory | mongodb | postgres
deriving DecidableEq

namespace BackendKind

def name : BackendKind → String
  | memory => "memory"
  | mongodb => "mongodb"
  | postgres => "postgres"

def ofScheme? (scheme : String) : Option BackendKind :=
  if scheme = "memory" then some memory
  else if scheme = "mongodb" ∨ scheme = "mongodb+srv" then some mongodb
  else if scheme = "postgres" ∨ scheme = "postgresql" then some postgres
  else none

/-- The backends that need no client library. -/
def builtIn : List BackendKind := [memory]

end BackendKind

namespace Connection

/-- What stands before the first colon, in lower case; without a colon the whole text. -/
def scheme (url : String) : String :=
  String.ofList ((url.toList.takeWhile (· != ':')).map Char.toLower)

/-- The backend that a URL names, if it is among the enabled ones. -/
def select (enabled : List BackendKind) (url : String) : Outcome BackendKind :=
  let scheme := scheme url
  match BackendKind.ofScheme? scheme with
  | none => .error (.unsupportedOperation s!"no driver for connection scheme `{scheme}`")
  | some kind =>
    if enabled.contains kind then .ok kind
    else .error (.unsupportedOperation s!"the `{scheme}` backend is not enabled in this build")

end Connection

end ObjectStore
