import ObjectStore.Failure
import ObjectStore.Predicate.Evaluate

/-!
# Errors of the server

Every error of the database is classified once, when it arrives. Only errors of commands and of writes have a code that means anything; labels may come with any error.
-/

namespace ObjectStore

namespace Documents

inductive ErrorSource where
  /-- The command failed as a whole. -/
  | command
  | write
  /-- The write was made but not acknowledged as asked. -/
  | writeConcern
  /-- No answer of a server was involved. -/
  | client
deriving DecidableEq

structure ServerError where
  source : ErrorSource
  code : Int
  message : String
  labels : List String := []
deriving DecidableEq

namespace ServerError

def duplicateKey : Int := 11000

def writeConflict : Int := 112

def namespaceExists : Int := 48

def namespaceNotFound : Int := 26

def indexNotFound : Int := 27

/-- The label of errors after which the whole transaction may be run again. -/
def transientLabel : String := "TransientTransactionError"

def isFromServer (error : ServerError) : Bool := error.source = .command || error.source = .write

def code? (error : ServerError) : Option Int := if error.isFromServer then some error.code else none

/-- How a message names the index on ids. -/
def idIndexName : String := "index: _id_"

def violatesId (error : ServerError) : Bool :=
  error.isFromServer && TextPattern.contains.holds error.message idIndexName

def race? (error : ServerError) : Option Race :=
  if error.labels.contains transientLabel then some .conflict
  else if error.code? = some duplicateKey ∧ error.violatesId then some .duplicateId
  else if error.code? = some writeConflict then some .conflict
  else none

def toFailure (error : ServerError) : Failure := .backend error.race? error.message

end ServerError

def outcomeOf {α : Type} (answer : Except ServerError α) : Outcome α := answer.mapError ServerError.toFailure

/-- The outcome of an answer that some codes of the server do not make a failure. -/
def tolerate (codes : List Int) (answer : Except ServerError Unit) : Outcome Unit :=
  match answer with
  | .error error => if error.code?.any codes.contains then .ok () else .error error.toFailure
  | .ok () => .ok ()

end Documents

end ObjectStore
