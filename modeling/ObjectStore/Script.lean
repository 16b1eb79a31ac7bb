import ObjectStore.Column
import ObjectStore.Object
import ObjectStore.Retry

/-!
# Scripts of store operations

The operations that every backend performs, and finite programs over them. A later step of a script may depend on the results of earlier ones, and a script may open transactions, also within transactions. What a script means is left to a backend: it says what an operation does and how a transaction brackets its body.
-/

namespace ObjectStore

/-- Decides about an object from the objects visited before it; a failure ends the visit. -/
abbrev Visitor := List Object → Object → Outcome Unit

/-- How far a visit went: the objects that the visitor accepted, and how it ended. -/
structure Visit where
  visited : List Object
  result : Outcome Unit

/-- Reads objects one by one and shows each to a visitor, until one cannot be read or the visitor fails. -/
def Visitor.visit {α : Type} (visitor : Visitor) (read : α → Outcome Object) (visited : List Object) : List α → Visit
  | [] => { visited, result := .ok () }
  | item :: rest =>
    match read item with
    | .error failure => { visited, result := .error failure }
    | .ok object =>
      match visitor visited object with
      | .error failure => { visited, result := .error failure }
      | .ok () => visit visitor read (visited ++ [object]) rest

def Visit.failed (failure : Failure) : Visit := { visited := [], result := .error failure }

/-- The operations of a store. All names in them are those that callers use. -/
inductive Operation where
  | tables
  /-- Makes a class with the reserved fields and the given columns. -/
  | createTable (className : String) (columns : List Column)
  | addColumns (className : String) (columns : List Column)
  | dropTable (className : String)
  | dropColumns (className : String) (columns : List String)
  | addIndex (className name : String) (keys : SortKeys) (unique : Bool)
  | dropIndex (className name : String)
  | count (query : FindQuery)
  | find (query : FindQuery)
  /-- Shows the matches to a visitor, one by one. -/
  | each (query : FindQuery) (visitor : Visitor)
  | first (query : FindQuery)
  /-- Updates the first match and returns the wanted image. -/
  | update (query : FindOneQuery)
  /-- Updates the first match, or inserts a record if there is none. -/
  | upsert (query : FindOneQuery)
  /-- Deletes the first match and returns it. -/
  | delete (query : FindOneQuery)
  /-- Deletes all matches and returns their number. -/
  | deleteAll (query : FindQuery)
  /-- Inserts a record under a generated id. -/
  | insert (className : String) (fields : Fields)

def Operation.Answer : Operation → Type
  | tables => List String
  | createTable _ _ | addColumns _ _ | dropTable _ | dropColumns _ _ | addIndex _ _ _ _ | dropIndex _ _ => Unit
  | count _ | deleteAll _ => Nat
  | find _ => List Object
  | each _ _ => Visit
  | first _ | update _ | upsert _ | delete _ => Option Object
  | insert _ _ => Object

/-- A finite program of store operations. -/
inductive Script : Type → Type 1 where
  | done {α : Type} (result : α) : Script α
  | step {α : Type} (operation : Operation) (next : Outcome operation.Answer → Script α) : Script α
  /-- Runs a body in one transaction: it commits if the body ends well and rolls back otherwise. Besides its end the body hands on whatever it learned, also when it is rolled back; there is nothing to hand on if it never ran. -/
  | transaction {α β : Type} (options : TransactionOptions) (body : Script (Outcome Unit × β))
      (next : Outcome Unit × Option β → Script α) : Script α

namespace Script

/-- Runs one script and then the one that its result chooses. -/
def bind {α β : Type} : Script α → (α → Script β) → Script β
  | done a, k => k a
  | step operation next, k => step operation fun outcome => bind (next outcome) k
  | transaction options body next, k => transaction options body fun outcome => bind (next outcome) k

instance : Monad Script where
  pure := done
  bind := bind

def perform (operation : Operation) : Script (Outcome operation.Answer) := step operation done

end Script

/-- What a script means: how an operation is performed, inside a transaction or not, and how an outermost transaction brackets its body. -/
structure Backend (m : Type → Type) where
  perform : Bool → (operation : Operation) → m (Outcome operation.Answer)
  transact : {β : Type} → TransactionOptions → m (Outcome Unit × β) → m (Outcome Unit × Option β)

/-- Runs a body in one transaction. A body within a transaction joins it. -/
def Backend.bracket {m : Type → Type} [Monad m] (backend : Backend m) (inTransaction : Bool)
    (options : TransactionOptions) {β : Type} (body : m (Outcome Unit × β)) : m (Outcome Unit × Option β) :=
  if inTransaction then do
    let (outcome, learned) ← body
    return (outcome, some learned)
  else backend.transact options body

def Script.run {m : Type → Type} [Monad m] (backend : Backend m) {α : Type} (inTransaction : Bool) : Script α → m α
  | done a => pure a
  | step operation next => do
    let outcome ← backend.perform inTransaction operation
    run backend inTransaction (next outcome)
  | transaction options body next => do
    let outcome ← backend.bracket inTransaction options (run backend true body)
    run backend inTransaction (next outcome)

end ObjectStore
