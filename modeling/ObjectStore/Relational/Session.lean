import ObjectStore.Relational.Query
import ObjectStore.Relational.Row
import ObjectStore.Relational.Schema
import ObjectStore.Relational.ServerError
import ObjectStore.Script

/-!
# Sessions with a server

The operations of the store over one connection to a relational server. Every operation is a program of statements whose answers decide how it goes on; what a statement does is left to the connection. Inside a transaction a statement that may lose a race runs under a savepoint, so that losing it leaves the transaction usable.
-/

namespace ObjectStore

namespace Relational

/-- A connection to a server, together with the sources of stamps and identifiers. -/
structure Connection (m : Type → Type) where
  /-- The next write stamp, in whole microseconds. -/
  now : m Instant
  drawId : m String
  /-- Asks the catalog for the tables of a name in any case: the table, name and type of every column, in order. -/
  lookup : String → m (Except ServerError (List (String × String × String)))
  batch : String → m (Except ServerError Unit)
  query : Statement → m (Except ServerError Rows)
  /-- Runs a statement and returns how many rows it affected. -/
  execute : Statement → m (Except ServerError Nat)

def outcomeOf {α : Type} (answer : Except ServerError α) : Outcome α := answer.mapError ServerError.toFailure

def schemaSavepoint : String := "objlayer_ddl"

def writeSavepoint : String := "objlayer_write"

def listTables : Statement where
  text := "SELECT table_name::text FROM information_schema.tables "
    ++ "WHERE table_schema = current_schema() AND table_type = 'BASE TABLE' ORDER BY table_name"
  parameters := []

/-- The table of a name among the rows of the catalog: the one of exactly that name, or else the first. -/
def Table.ofCatalog? (name : String) (rows : List (String × String × String)) : Option Table :=
  match rows with
  | [] => none
  | (first, _, _) :: _ =>
    let chosen := if rows.any fun (table, _, _) => table == name then name else first
    let columns := rows.filterMap fun (table, column, type) =>
      if table = chosen then some (column, SqlType.ofCatalog type) else none
    some { name := chosen, columns := OrderedMap.ofList columns }

namespace Connection

variable {m : Type → Type} [Monad m]

/-- A text ends at its first zero character, so one that holds such a character cannot be sent. -/
def unsendable : ServerError := { code := none, message := "a statement holds a zero character" }

/-- Sends a text, if it can be sent, and classifies the answer. -/
def sending {α : Type} (text : String) (answer : m (Except ServerError α)) : m (Outcome α) :=
  outcomeOf <$> if text.toList.contains '\x00' then pure (.error unsendable) else answer

def run (connection : Connection m) (text : String) : m (Outcome Unit) := sending text (connection.batch text)

def rows (connection : Connection m) (statement : Statement) : m (Outcome Rows) :=
  sending statement.text (connection.query statement)

def affected (connection : Connection m) (statement : Statement) : m (Outcome Nat) :=
  sending statement.text (connection.execute statement)

/-- Runs a step under a savepoint: released if the step succeeds and rolled back to if it fails. -/
def guarded (connection : Connection m) (savepoint : String) {α : Type} (step : m (Outcome α)) : m (Outcome α) :=
  andThen (connection.run ("SAVEPOINT " ++ savepoint)) fun _ => do
    match ← step with
    | .ok a => andThen (connection.run ("RELEASE SAVEPOINT " ++ savepoint)) fun _ => pure (.ok a)
    | .error failure =>
      let _ ← connection.run ("ROLLBACK TO SAVEPOINT " ++ savepoint)
      return .error failure

end Connection

/-- A connection in use, inside a transaction or not. -/
structure Session (m : Type → Type) where
  connection : Connection m
  inTransaction : Bool
  /-- How often a lost race is retried where there is no other limit. -/
  patience : Nat

namespace Session

variable {m : Type → Type} [Monad m]

def guarded (session : Session m) (savepoint : String) {α : Type} (step : m (Outcome α)) : m (Outcome α) :=
  if session.inTransaction then session.connection.guarded savepoint step else step

def catalog (session : Session m) : Catalog m where
  table? name := do
    let rows ← session.connection.lookup name
    return (outcomeOf rows).map (Table.ofCatalog? name)
  createTable name columns := session.guarded schemaSavepoint (session.connection.run (createTableText name columns))
  addColumns name columns := session.guarded schemaSavepoint (session.connection.run (addColumnsText name columns))

def table? (session : Session m) (className : String) : m (Outcome (Option Table)) :=
  if className.isEmpty then pure (.error .classNotSet) else session.catalog.table? className

/-- The table of a class, made or widened as some columns need. -/
def sync (session : Session m) (className : String) (columns : List Column) : m (Outcome Table) :=
  if className.isEmpty then pure (.error .classNotSet)
  else Relational.sync session.catalog session.patience className columns

/-- Continues with the table of a class, or ends with a result when there is none. -/
def withTable (session : Session m) (className : String) {α : Type} (missing : α) (next : Table → m (Outcome α)) :
    m (Outcome α) :=
  andThen (session.table? className) fun
    | none => pure (.ok missing)
    | some table => next table

def stamp (session : Session m) : m Value := Value.timestamp <$> session.connection.now

def tables (session : Session m) : m (Outcome (List String)) :=
  andThen (session.connection.rows listTables) fun rows => pure <| rows.cells.mapM fun row => do
    match ← rows.firstCell Cell.textTypes row with
    | .string name => return name
    | _ => throw (Cell.unreadable "0")

def dropTable (session : Session m) (className : String) : m (Outcome Unit) :=
  session.withTable className () fun table => session.connection.run ("DROP TABLE IF EXISTS " ++ quoteName table.name)

def dropColumns (session : Session m) (className : String) (columns : List String) : m (Outcome Unit) :=
  checked (FieldName.rejectReserved columns) <|
    if columns.isEmpty then pure (.ok ())
    else session.withTable className () fun table =>
      let drops := columns.map fun column => "DROP COLUMN IF EXISTS " ++ quoteName column
      session.connection.run ("ALTER TABLE " ++ quoteName table.name ++ " " ++ String.intercalate ", " drops)

/-- The key of an index, if the table has its column. -/
def indexKey (table : Table) (key : String) (order : SortOrder) : Outcome String :=
  let column := FieldName.toPhysical key
  if table.hasColumn column then
    .ok (quoteName column ++ match order with
      | .ascending => " ASC"
      | .descending => " DESC")
  else .error (.unsupportedOperation s!"cannot index `{key}`: table `{table.name}` has no such column")

def addIndex (session : Session m) (className name : String) (keys : SortKeys) (unique : Bool) : m (Outcome Unit) :=
  if keys.isEmpty then pure (.error (.unsupportedOperation "an index needs at least one key"))
  else andThen (session.sync className []) fun table =>
    match keys.mapM fun (key, order) => indexKey table key order with
    | .error failure => pure (.error failure)
    | .ok items => session.connection.run ("CREATE " ++ (if unique then "UNIQUE " else "") ++ "INDEX IF NOT EXISTS "
        ++ quoteName name ++ " ON " ++ quoteName table.name ++ " (" ++ String.intercalate ", " items ++ ")")

def dropIndex (session : Session m) (className name : String) : m (Outcome Unit) :=
  if className.isEmpty then pure (.error .classNotSet)
  else session.connection.run ("DROP INDEX IF EXISTS " ++ quoteName name)

/-- The number in the first row; none counts as zero, and so does a negative one. -/
def countOf (rows : Rows) : Outcome Nat :=
  match rows.cells with
  | [] => .ok 0
  | row :: _ => do
    match ← rows.firstCell ["int8"] row with
    | .integer n => return n.toInt.toNat
    | _ => throw (Cell.unreadable "0")

def count (session : Session m) (query : FindQuery) : m (Outcome Nat) :=
  checked query.validate <| session.withTable query.className 0 fun table =>
    andThen (session.connection.rows (Statement.count table query.toPhysical)) fun rows => pure (countOf rows)

def selectRows (session : Session m) (query : FindQuery) : m (Outcome (Option (Table × Rows))) :=
  checked query.validate <| session.withTable query.className none fun table =>
    andThen (session.connection.rows (Statement.select table query.toPhysical)) fun rows => pure (.ok (some (table, rows)))

def find (session : Session m) (query : FindQuery) : m (Outcome (List Object)) :=
  andThen (session.selectRows query) fun
    | none => pure (.ok [])
    | some (table, rows) => pure (rows.cells.mapM (rows.objectOf query.className table))

def each (session : Session m) (query : FindQuery) (visitor : Visitor) : m Visit := do
  match ← session.selectRows query with
  | .error failure => return Visit.failed failure
  | .ok none => return { visited := [], result := .ok () }
  | .ok (some (table, rows)) => return visitor.visit (rows.objectOf query.className table) [] rows.cells

def first (session : Session m) (query : FindQuery) : m (Outcome (Option Object)) :=
  andThen (session.find { query with limit := some 1 }) fun objects => pure (.ok objects.head?)

def firstObject (session : Session m) (className : String) (table : Table) (statement : Statement) :
    m (Outcome (Option Object)) :=
  andThen (session.connection.rows statement) fun rows => pure (rows.firstObject className table)

def update (session : Session m) (query : FindOneQuery) : m (Outcome (Option Object)) :=
  checked query.validate <| checked (FieldName.rejectReserved (OrderedMap.keys query.update)) <|
    session.withTable query.className none fun table =>
      let physical := query.toPhysical
      andThen (extend session.catalog session.patience table (Column.ofUpdates physical.update)) fun table => do
        let now ← session.stamp
        match Statement.update table physical now with
        | .error failure => return .error failure
        | .ok statement => session.firstObject query.className table statement

/-- Inserts a record, which may lose a race for its id. -/
def insertRecord (session : Session m) (table : Table) (record : Fields) (includes : Option NameSet) : m (Outcome Rows) :=
  session.guarded writeSavepoint (session.connection.rows (Statement.insert table record includes))

def insertOnce (session : Session m) (className : String) (table : Table) (fields : Fields) : m (Outcome Object) := do
  let now ← session.stamp
  let id ← session.connection.drawId
  let record := Fields.stamped (.string id) now fields
  andThen (session.insertRecord table record none) fun rows => pure <| do
    match ← rows.firstObject className table with
    | some object => return object
    | none => Object.ofRecord className record

def insert (session : Session m) (className : String) (fields : Fields) : m (Outcome Object) :=
  checked (FieldName.rejectReserved (OrderedMap.keys fields)) <|
    andThen (session.sync className (Column.ofFields fields)) fun table =>
      retryRaces [.duplicateId] none session.patience fun _ => session.insertOnce className table fields

/-- Inserts the seed of a query under its own id or a fresh one. -/
def insertSeed (session : Session m) (table : Table) (query : FindOneQuery) (seed : Fields) (now : Value) :
    m (Outcome (Option Object)) := do
  let id ← match OrderedMap.get? seed FieldName.physicalId with
    | some id => pure id
    | none => Value.string <$> session.connection.drawId
  let record := Fields.stamped id now (OrderedMap.filter (fun name _ => !FieldName.isReserved name) seed)
  andThen (session.insertRecord table record query.includes) fun rows =>
    match query.returning with
    | .before => pure (.ok none)
    | .after => pure (rows.firstObject query.className table)

def upsertOnce (session : Session m) (table : Table) (query : FindOneQuery) (seed : Fields) :
    m (Outcome (Option Object)) := do
  let now ← session.stamp
  match Statement.update table query now with
  | .error failure => return .error failure
  | .ok statement =>
    andThen (session.firstObject query.className table statement) fun
      | some object => pure (.ok (some object))
      | none => session.insertSeed table query seed now

def upsert (session : Session m) (query : FindOneQuery) : m (Outcome (Option Object)) :=
  checked query.validate <|
    checked (FieldName.rejectReserved (OrderedMap.keys query.update ++ OrderedMap.keys query.setOnInsert)) <|
      let physical := query.toPhysical
      match physical.upsertSeed with
      | .error failure => pure (.error failure)
      | .ok seed =>
        andThen (session.sync query.className (upsertColumns seed physical.update)) fun table =>
          let limit := if OrderedMap.contains seed FieldName.physicalId then some 2 else none
          retryRaces [.duplicateId] limit session.patience fun _ => session.upsertOnce table physical seed

def delete (session : Session m) (query : FindOneQuery) : m (Outcome (Option Object)) :=
  checked query.validate <| session.withTable query.className none fun table =>
    session.firstObject query.className table (Statement.delete table query.toPhysical)

def deleteAll (session : Session m) (query : FindQuery) : m (Outcome Nat) :=
  checked query.validate <| session.withTable query.className 0 fun table =>
    session.connection.affected (Statement.deleteAll table query.toPhysical)

def perform (session : Session m) : (operation : Operation) → m (Outcome operation.Answer)
  | .tables => session.tables
  | .createTable className columns | .addColumns className columns =>
    andThen (session.sync className columns) fun _ => pure (.ok ())
  | .dropTable className => session.dropTable className
  | .dropColumns className columns => session.dropColumns className columns
  | .addIndex className name keys unique => session.addIndex className name keys unique
  | .dropIndex className name => session.dropIndex className name
  | .count query => session.count query
  | .find query => session.find query
  | .each query visitor => Except.ok <$> session.each query visitor
  | .first query => session.first query
  | .update query => session.update query
  | .upsert query => session.upsert query
  | .delete query => session.delete query
  | .deleteAll query => session.deleteAll query
  | .insert className fields => session.insert className fields

end Session

namespace Connection

variable {m : Type → Type} [Monad m]

/-- One attempt at a transaction: opens it, runs the body, and commits or rolls back. -/
def attempt (connection : Connection m) (isolation : IsolationLevel) {β : Type} (body : m (Outcome Unit × β)) :
    m (Outcome Unit × Option β) := do
  match ← connection.run (beginText isolation) with
  | .error failure => return (.error failure, none)
  | .ok () =>
    let (outcome, learned) ← body
    match outcome with
    | .ok () => return (← connection.run "COMMIT", some learned)
    | .error failure =>
      let _ ← connection.run "ROLLBACK"
      return (.error failure, some learned)

end Connection

def backend {m : Type → Type} [Monad m] (connection : Connection m) (patience : Nat) : Backend m where
  perform inTransaction operation := Session.perform { connection, inTransaction, patience } operation
  transact options body := options.retrying fun _ => connection.attempt options.isolation body

end Relational

end ObjectStore
