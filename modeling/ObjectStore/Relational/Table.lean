import ObjectStore.Object
import ObjectStore.Relational.Type

/-!
# Tables

A table as the catalog describes it. Its name may differ from the class in case. A column keeps its type for ever, so a write is checked against the types that are there.
-/

namespace ObjectStore

namespace Relational

abbrev Definitions := List (String × SqlType)

structure Table where
  /-- The name in the catalog. -/
  name : String
  columns : OrderedMap SqlType
deriving DecidableEq, Inhabited

namespace Table

def column? (table : Table) (name : String) : Option SqlType := OrderedMap.get? table.columns name

def hasColumn (table : Table) (name : String) : Bool := OrderedMap.contains table.columns name

def reserved : Definitions :=
  [(FieldName.physicalId, .text), (FieldName.physicalCreatedAt, .timestamptz), (FieldName.physicalUpdatedAt, .timestamptz)]

def narrowing (table : Table) (column : Column) (existing : SqlType) : Failure :=
  .unsupportedType column.type.kind
    ("column " ++ table.name ++ "." ++ column.name ++ " is " ++ existing.name ++ " and cannot store "
      ++ (SqlType.ofFieldType column.type).name ++ " without narrowing")

/-- Whether a column that exists keeps what is written to it. A missing one is not checked. -/
def checkColumn (table : Table) (column : Column) : Outcome Unit :=
  match table.column? column.name with
  | some existing =>
    if existing.holds (SqlType.ofFieldType column.type) then .ok () else .error (table.narrowing column existing)
  | none => .ok ()

/-- Fails at the first column that cannot keep what is written to it. -/
def checkColumns (table : Table) (columns : List Column) : Outcome Unit := columns.forM table.checkColumn

def addColumns (table : Table) (columns : Definitions) : Table :=
  { table with columns := OrderedMap.extend table.columns columns }

def create (name : String) (columns : Definitions) : Table := addColumns { name, columns := reserved } columns

end Table

end Relational

end ObjectStore
