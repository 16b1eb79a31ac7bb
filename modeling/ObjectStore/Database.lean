import ObjectStore.Script

/-!
# The object interface

Fetching, saving and deleting objects, and running a body in a transaction, as scripts over the operations of a store. A collection is a class with the operations bound to it.
-/

namespace ObjectStore

namespace Database

def idFilter (id : String) : Predicate := Key.id.eq (.string id)

/-- The object that was found, or the failure of an id that names no record. -/
def found (id className : String) : Option Object → Outcome Object
  | some object => .ok object
  | none => .error (.objectNotFound id className)

def fetch (className id : String) : Script (Outcome Object) :=
  andThen (.perform (.first { className, filters := [idFilter id] })) fun object => pure (found id className object)

/-- Writes a draft. One without an id is inserted; otherwise its mutations are applied to the record of that id. -/
def save (draft : Draft) : Script (Outcome Object) :=
  match FieldName.rejectReserved (OrderedMap.keys draft.mutations) with
  | .error failure => pure (.error failure)
  | .ok () =>
    let className := draft.object.className
    match draft.object.id with
    | none =>
      match draft.insertFields with
      | .error failure => pure (.error failure)
      | .ok fields => .perform (.insert className fields)
    | some id =>
      andThen (.perform (.update { className, filters := [idFilter id], update := draft.mutations }))
        fun object => pure (found id className object)

def delete (object : Object) : Script (Outcome Unit) :=
  match object.id with
  | none => pure (.error .invalidObjectId)
  | some id =>
    andThen (.perform (.delete { className := object.className, filters := [idFilter id] }))
      fun deleted => pure ((found id object.className deleted).map fun _ => ())

/-- The value of a transaction: the one that the committed body computed. -/
def concluded {α : Type} : Outcome Unit × Option (Option α) → Outcome α
  | (.error failure, _) => .error failure
  | (.ok (), some (some a)) => .ok a
  | (.ok (), _) => .error (.unsupportedOperation "transaction body did not run")

/-- The end of a body and the value that it computed, if any. -/
def bracketed {α : Type} : Outcome α → Outcome Unit × Option α
  | .ok a => (.ok (), some a)
  | .error failure => (.error failure, none)

def transaction {α : Type} (options : TransactionOptions) (body : Script (Outcome α)) : Script (Outcome α) :=
  .transaction options (bracketed <$> body) fun ended => pure (concluded ended)

end Database

structure Collection where
  className : String

namespace Collection

def query (collection : Collection) : FindQuery := { className := collection.className }

def queryOne (collection : Collection) : FindOneQuery := { className := collection.className }

def draft (collection : Collection) : Draft := Draft.new collection.className

def insert (collection : Collection) (fields : Fields) : Script (Outcome Object) :=
  .perform (.insert collection.className fields)

def find (collection : Collection) (filter : Predicate) : Script (Outcome (List Object)) :=
  .perform (.find (collection.query.addFilter filter))

def first (collection : Collection) (filter : Predicate) : Script (Outcome (Option Object)) :=
  .perform (.first (collection.query.addFilter filter))

def fetch (collection : Collection) (id : String) : Script (Outcome Object) :=
  andThen (collection.first (Database.idFilter id)) fun object => pure (Database.found id collection.className object)

def count (collection : Collection) (filter : Predicate) : Script (Outcome Nat) :=
  .perform (.count (collection.query.addFilter filter))

def all (collection : Collection) : Script (Outcome (List Object)) := .perform (.find collection.query)

def deleteAll (collection : Collection) (filter : Predicate) : Script (Outcome Nat) :=
  .perform (.deleteAll (collection.query.addFilter filter))

end Collection

end ObjectStore
