import ObjectStore.Documents.Command
import ObjectStore.Documents.ServerError
import ObjectStore.Script

/-!
# Sessions with a document database

The operations of the store over one connection to a document database. Each operation is one command, apart from insertions that lost a race for their id, which are repeated under a fresh one. In a transaction the commands that read and write documents join it.
-/

namespace ObjectStore

namespace Documents

/-- A connection to a database, together with the sources of stamps and identifiers. -/
structure Connection (m : Type → Type) where
  /-- The next write stamp, in whole milliseconds. -/
  now : m Instant
  drawId : m String
  /-- Runs a command, inside the open transaction or outside of it. -/
  run : Bool → (command : Command) → m (Except ServerError command.Answer)
  /-- The next batch of the result that was opened last. -/
  more : m (Except ServerError Batch)
  start : Concerns → m (Except ServerError Unit)
  commit : m (Except ServerError Unit)
  abort : m (Except ServerError Unit)

def objectOf (className : String) (document : Document) : Outcome Object := do
  let record ← document.toFields
  Object.ofRecord className record

def collectionName (document : Document) : Outcome String :=
  match OrderedMap.get? document "name" with
  | some (.string name) => .ok name
  | _ => .error (.backend none "a collection without a name")

/-- Collections whose names begin so belong to the database. -/
def systemStart : String := "system."

def classNames (collections : List String) : List String :=
  ((collections.filter fun name => !systemStart.toList.isPrefixOf name.toList).map Percent.restore).mergeSort
    fun a b => decide (a ≤ b)

/-- A connection in use, inside a transaction or not. -/
structure Session (m : Type → Type) where
  connection : Connection m
  inTransaction : Bool
  /-- How often a lost race is retried and how many batches are read where there is no other limit. -/
  patience : Nat

namespace Session

variable {m : Type → Type} [Monad m]

def ask (session : Session m) (command : Command) : m (Except ServerError command.Answer) :=
  session.connection.run (session.inTransaction && command.joins) command

def run (session : Session m) (command : Command) : m (Outcome command.Answer) := outcomeOf <$> session.ask command

/-- Hands the batches of a result to a step, until it has enough or there is no more. -/
def batches {σ : Type} (session : Session m) (step : σ → List Document → σ) (enough : σ → Bool) :
    Nat → σ → Batch → m (σ × Outcome Unit)
  | 0, state, _ => pure (state, .ok ())
  | remaining + 1, state, batch => do
    let state := step state batch.documents
    if enough state || !batch.more then return (state, .ok ())
    else
      match outcomeOf (← session.connection.more) with
      | .ok batch => batches session step enough remaining state batch
      | .error failure => return (state, .error failure)

def collection (className : String) : String := Percent.escape className

def tables (session : Session m) : m (Outcome (List String)) :=
  andThen (session.run .listCollections) fun first => do
    let (documents, ending) ← session.batches (· ++ ·) (fun _ => false) session.patience [] first
    return ending.bind fun _ => (documents.mapM collectionName).map classNames

def createTable (session : Session m) (className : String) : m (Outcome Unit) :=
  if className.isEmpty then pure (.error .classNotSet)
  else tolerate [ServerError.namespaceExists] <$> session.ask (.create (collection className))

def dropTable (session : Session m) (className : String) : m (Outcome Unit) :=
  tolerate [ServerError.namespaceNotFound] <$> session.ask (.drop (collection className))

def dropColumns (session : Session m) (className : String) (columns : List String) : m (Outcome Unit) :=
  checked (FieldName.rejectReserved columns) <|
    if columns.isEmpty then pure (.ok ())
    else session.run (.unsetAll (collection className) (columns.map Percent.escape))

def addIndex (session : Session m) (className name : String) (keys : SortKeys) (unique : Bool) : m (Outcome Unit) :=
  match sortDocument? (OrderedMap.mapKeys FieldName.toPhysical keys) with
  | none => pure (.error (.unsupportedOperation "an index needs at least one key"))
  | some keys => session.run (.createIndex (collection className) name keys unique)

def dropIndex (session : Session m) (className name : String) : m (Outcome Unit) :=
  tolerate [ServerError.indexNotFound, ServerError.namespaceNotFound] <$>
    session.ask (.dropIndex (collection className) name)

def count (session : Session m) (query : FindQuery) : m (Outcome Nat) :=
  checked query.validate <|
    let physical := query.toPhysical
    proceed (Filter.ofOptional physical.predicate?) fun filter =>
      session.run (.count (collection query.className) filter (skipOf physical) physical.limit)

/-- Shows the matches to a visitor, batch by batch. -/
def each (session : Session m) (query : FindQuery) (visitor : Visitor) : m Visit :=
  let found : m (Outcome Batch) :=
    checked query.validate <|
      let physical := query.toPhysical
      proceed (Filter.ofOptional physical.predicate?) fun filter =>
        session.run (.find (collection query.className) filter (FindOptions.ofQuery physical))
  do
    match ← found with
    | .error failure => return Visit.failed failure
    | .ok first =>
      let step (visit : Visit) (documents : List Document) : Visit :=
        visitor.visit (objectOf query.className) visit.visited documents
      let stopped (visit : Visit) : Bool := visit.result matches .error _
      let (visit, ending) ← session.batches step stopped session.patience { visited := [], result := .ok () } first
      return { visit with result := ending.bind fun _ => visit.result }

def find (session : Session m) (query : FindQuery) : m (Outcome (List Object)) := do
  let visit ← session.each query fun _ _ => .ok ()
  return visit.result.map fun _ => visit.visited

def first (session : Session m) (query : FindQuery) : m (Outcome (Option Object)) :=
  andThen (session.find { query with limit := some 1 }) fun objects => pure (.ok objects.head?)

/-- The object that a command on one document returned. -/
def returned (className : String) (answer : m (Outcome (Option Document))) : m (Outcome (Option Object)) :=
  andThen answer fun document => pure (document.mapM (objectOf className))

def update (session : Session m) (query : FindOneQuery) : m (Outcome (Option Object)) :=
  checked query.validate <| checked (FieldName.rejectReserved (OrderedMap.keys query.update)) <|
    let physical := query.toPhysical
    proceed (Filter.ofOptional physical.predicate?) fun filter => do
      let now ← session.connection.now
      proceed (Changes.ofUpdates physical.update now) fun changes =>
        returned query.className <|
          session.run (.updateOne (collection query.className) filter changes (FindOneOptions.ofQuery physical) false)

/-- The id for a record that an upsert may insert; none if the filters fix it. -/
def freshId? (session : Session m) (pinned : Bool) : m (Option String) :=
  if pinned then pure none else some <$> session.connection.drawId

def upsertOnce (session : Session m) (query : FindOneQuery) (pinned : Bool) : m (Outcome (Option Object)) := do
  let id ← session.freshId? pinned
  let now ← session.connection.now
  proceed (Changes.ofUpsert query.update query.setOnInsert id now) fun changes =>
    proceed (Filter.ofOptional query.predicate?) fun filter =>
      returned query.className <|
        session.run (.updateOne (collection query.className) filter changes (FindOneOptions.ofQuery query) true)

/-- The number of attempts at an upsert. A fixed id that is taken belongs to a record that the filters reject, and one more attempt is enough to see it. -/
def upsertLimit (pinned : Bool) : Option Nat := if pinned then some 2 else none

def upsert (session : Session m) (query : FindOneQuery) : m (Outcome (Option Object)) :=
  checked query.validate <|
    checked (FieldName.rejectReserved (OrderedMap.keys query.update ++ OrderedMap.keys query.setOnInsert)) <|
      let physical := query.toPhysical
      let pinned := pinsId physical
      retryRaces [.duplicateId] (upsertLimit pinned) session.patience fun _ => session.upsertOnce physical pinned

def delete (session : Session m) (query : FindOneQuery) : m (Outcome (Option Object)) :=
  checked query.validate <|
    let physical := query.toPhysical
    proceed (Filter.ofOptional physical.predicate?) fun filter =>
      let options := FindOneOptions.ofQuery physical
      returned query.className <|
        session.run (.deleteOne (collection query.className) filter options.sort options.projection)

def deleteAll (session : Session m) (query : FindQuery) : m (Outcome Nat) :=
  checked query.validate <|
    proceed (Filter.ofOptional query.toPhysical.predicate?) fun filter =>
      session.run (.deleteAll (collection query.className) filter)

def insertOnce (session : Session m) (className : String) (fields : Fields) : m (Outcome Object) := do
  let now ← session.connection.now
  let id ← session.connection.drawId
  let record := Fields.stamped (.string id) (.timestamp now) fields
  proceed (Document.ofFields record) fun document =>
    andThen (session.run (.insert (collection className) document)) fun _ => pure (Object.ofRecord className record)

def insert (session : Session m) (className : String) (fields : Fields) : m (Outcome Object) :=
  if className.isEmpty then pure (.error .classNotSet)
  else checked (FieldName.rejectReserved (OrderedMap.keys fields)) <|
    retryRaces [.duplicateId] none session.patience fun _ => session.insertOnce className fields

def perform (session : Session m) : (operation : Operation) → m (Outcome operation.Answer)
  | .tables => session.tables
  | .createTable className _ | .addColumns className _ => session.createTable className
  | .dropTable className => session.dropTable className
  | .dropColumns className columns => session.dropColumns className columns
  | .addIndex className name keys unique => session.addIndex className name keys unique
  | .dropIndex className name => session.dropIndex className name
  | .count query => session.count query
  | .find query => session.find query
  | .each query visitor => Except.ok <$> session.each query visitor
  | .first query => session.first query
  | .update query => session.update query
  | .upsert query => session.upsert query
  | .delete query => session.delete query
  | .deleteAll query => session.deleteAll query
  | .insert className fields => session.insert className fields

end Session

namespace Connection

variable {m : Type → Type} [Monad m]

/-- One attempt at a transaction: opens it, runs the body, and commits or aborts. -/
def attempt (connection : Connection m) (isolation : IsolationLevel) {β : Type} (body : m (Outcome Unit × β)) :
    m (Outcome Unit × Option β) := do
  match outcomeOf (← connection.start (Concerns.ofIsolation isolation)) with
  | .error failure => return (.error failure, none)
  | .ok () =>
    let (outcome, learned) ← body
    match outcome with
    | .ok () => return (outcomeOf (← connection.commit), some learned)
    | .error failure =>
      let _ ← connection.abort
      return (.error failure, some learned)

end Connection

def backend {m : Type → Type} [Monad m] (connection : Connection m) (patience : Nat) : Backend m where
  perform inTransaction operation := Session.perform { connection, inTransaction, patience } operation
  transact options body := options.retrying fun _ => connection.attempt options.isolation body

end Documents

end ObjectStore
