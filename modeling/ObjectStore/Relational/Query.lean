import ObjectStore.Query
import ObjectStore.Relational.Assignment
import ObjectStore.Relational.Condition
import ObjectStore.Retry

/-!
# Statements of queries

The statements that read and write the records of a class. A write of one record locks its first match in a subquery and changes it in the same statement. Columns are listed by name, and numeric ones are read as text, so that no digit is lost.
-/

namespace ObjectStore

namespace Relational

namespace Pieces

/-- A column that is read, from a named source if one is given. -/
def readColumn (table : Table) (source : Option String) (name : String) : Pieces :=
  let qualified : Pieces := match source with
    | some source => [.name source, .sql ".", .name name]
    | none => [.name name]
  match table.column? name with
  | some .numeric => qualified ++ [.sql "::text AS ", .name name]
  | _ => qualified

/-- The names of the columns that are read: the listed ones that exist, or all of them, and the id if there are none. -/
def projected (table : Table) (includes : Option NameSet) : List String :=
  let names := match includes with
    | some names => names.filter table.hasColumn
    | none => OrderedMap.keys table.columns
  if names.isEmpty then [FieldName.physicalId] else names

def projection (table : Table) (includes : Option NameSet) (source : Option String) : Pieces :=
  join ", " ((projected table includes).map (readColumn table source))

/-- One sort key. Null comes first in ascending order. -/
def sortKey (name : String) : SortOrder → Pieces
  | .ascending => [.name name, .sql " ASC NULLS FIRST"]
  | .descending => [.name name, .sql " DESC NULLS LAST"]

def orderBy (table : Table) (sort : SortKeys) : Pieces :=
  match OrderedMap.filter (fun name _ => table.hasColumn name) sort with
  | [] => []
  | keys => .sql " ORDER BY " :: join ", " (keys.map fun (name, order) => sortKey name order)

def paging (skip : Nat) (limit : Option Nat) : Pieces :=
  (if 0 < skip then [.sql s!" OFFSET {skip}"] else []) ++
    match limit with
    | some limit => [.sql s!" LIMIT {limit}"]
    | none => []

def condition (table : Table) (predicate? : Option Predicate) : Pieces := (Condition.ofOptional table predicate?).pieces

/-- Opens a statement with the id of the first match, locked. -/
def target (table : Table) (query : FindOneQuery) : Pieces :=
  [.sql "WITH target AS (SELECT ", .name FieldName.physicalId, .sql " FROM ", .name table.name, .sql " WHERE "]
    ++ condition table query.predicate? ++ orderBy table query.sort ++ [.sql " LIMIT 1 FOR UPDATE)"]

def onTarget : Pieces :=
  [.sql "target WHERE affected.", .name FieldName.physicalId, .sql " = target.", .name FieldName.physicalId]

end Pieces

namespace Statement

open Pieces

def select (table : Table) (query : FindQuery) : Statement :=
  ofPieces (.sql "SELECT " :: projection table query.includes none ++ [.sql " FROM ", .name table.name, .sql " WHERE "]
    ++ condition table query.predicate? ++ orderBy table query.sort ++ paging query.skip query.limit)

def count (table : Table) (query : FindQuery) : Statement :=
  ofPieces ([.sql "SELECT COUNT(*) FROM (SELECT 1 FROM ", .name table.name, .sql " WHERE "]
    ++ condition table query.predicate? ++ paging query.skip query.limit ++ [.sql ") AS matched"])

/-- Updates the first match and reads the wanted image. Every part of the statement sees the rows as they were before. -/
def update (table : Table) (query : FindOneQuery) (now : Value) : Outcome Statement := do
  let assignments ← Assignment.listPieces table query.update now
  let change := [.sql "UPDATE ", .name table.name, .sql " AS affected SET "] ++ assignments ++ .sql " FROM " :: onTarget
  return ofPieces (target table query ++ match query.returning with
    | .after => .sql " " :: change ++ .sql " RETURNING " :: projection table query.includes (some "affected")
    | .before =>
      [.sql ", previous AS (SELECT ", .name table.name, .sql ".* FROM ", .name table.name, .sql " JOIN target USING (",
          .name FieldName.physicalId, .sql ")), updated AS ("]
        ++ change ++ .sql ") SELECT " :: projection table query.includes none ++ [.sql " FROM previous"])

def delete (table : Table) (query : FindOneQuery) : Statement :=
  ofPieces (target table query ++ [.sql " DELETE FROM ", .name table.name, .sql " AS affected USING "] ++ onTarget
    ++ .sql " RETURNING " :: projection table query.includes (some "affected"))

def deleteAll (table : Table) (query : FindQuery) : Statement :=
  ofPieces ([.sql "DELETE FROM ", .name table.name, .sql " WHERE "] ++ condition table query.predicate?)

/-- The fields of a record that an insertion writes: those that are not null and have a column. -/
def insertedFields (table : Table) (record : Fields) : Fields :=
  OrderedMap.filter (fun name value => !value.isNull && table.hasColumn name) record

def insert (table : Table) (record : Fields) (includes : Option NameSet) : Statement :=
  let inserted := insertedFields table record
  ofPieces ([.sql "INSERT INTO ", .name table.name, .sql " ("] ++ join ", " (inserted.map fun (name, _) => [.name name])
    ++ .sql ") VALUES (" :: join ", " (inserted.map fun (_, value) => [.value value])
    ++ .sql ") RETURNING " :: projection table includes none)

end Statement

/-- The columns that an update-or-insert writes: those of the seed's fields and then those of the updates, each name once. -/
def upsertColumns (seed : Fields) (updates : Updates) : List Column :=
  (Column.ofFields seed ++ Column.ofUpdates updates).foldl
    (fun columns column => if columns.any fun known => known.name == column.name then columns else columns ++ [column]) []

def beginText : IsolationLevel → String
  | .default => "BEGIN"
  | .readCommitted => "BEGIN ISOLATION LEVEL READ COMMITTED"
  | .repeatableRead => "BEGIN ISOLATION LEVEL REPEATABLE READ"
  | .serializable => "BEGIN ISOLATION LEVEL SERIALIZABLE"

end Relational

end ObjectStore
