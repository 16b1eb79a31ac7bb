import ObjectStore.Relational.Statement
import ObjectStore.Relational.Table
import ObjectStore.Retry

/-!
# Keeping the schema up to date

Tables and columns are made when a write first needs them. Several writers may do so at once; the one that loses sees a race and looks again. A column that exists with a type that cannot keep the written values is a failure, before anything is changed.
-/

namespace ObjectStore

namespace Relational

/-- What the schema needs of a catalog, each step in a monad. -/
structure Catalog (m : Type → Type) where
  /-- The table of a name, in any case. -/
  table? : String → m (Outcome (Option Table))
  /-- Makes a table with the reserved columns and others. -/
  createTable : String → Definitions → m (Outcome Unit)
  /-- Adds the columns that are missing. -/
  addColumns : String → Definitions → m (Outcome Unit)

/-- The definitions that columns ask for; the reserved ones are always there. -/
def wantedDefinitions (columns : List Column) : Definitions :=
  (columns.filter fun column => !FieldName.reserved.contains column.name).map fun column =>
    (column.name, SqlType.ofFieldType column.type)

def Table.missing (table : Table) (definitions : Definitions) : Definitions :=
  definitions.filter fun (name, _) => !table.hasColumn name

variable {m : Type → Type} [Monad m]

/-- One round: looks the table up and makes what is missing. -/
def syncOnce (catalog : Catalog m) (className : String) (columns : List Column) : m (Outcome Table) :=
  let wanted := wantedDefinitions columns
  andThen (catalog.table? className) fun
    | none => andThen (catalog.createTable className wanted) fun _ => pure (.ok (Table.create className wanted))
    | some table =>
      match table.checkColumns columns with
      | .error failure => pure (.error failure)
      | .ok () =>
        let missing := table.missing wanted
        if missing.isEmpty then pure (.ok table)
        else andThen (catalog.addColumns table.name missing) fun _ => pure (.ok (table.addColumns missing))

/-- Makes sure that the table of a class has some columns, and returns it. A lost race starts another round. -/
def sync (catalog : Catalog m) (patience : Nat) (className : String) (columns : List Column) : m (Outcome Table) :=
  retryRaces [.duplicateTable] none patience fun _ => syncOnce catalog className columns

/-- Widens a table that is already known. The catalog is asked only when a column is missing. -/
def extend (catalog : Catalog m) (patience : Nat) (table : Table) (columns : List Column) : m (Outcome Table) :=
  if columns.all fun column => table.hasColumn column.name then pure ((table.checkColumns columns).map fun _ => table)
  else sync catalog patience table.name columns

def createTableText (name : String) (columns : Definitions) : String :=
  let definition (columnName : String) (type : SqlType) : String := quoteName columnName ++ " " ++ type.name
  let definitions := (Table.reserved ++ columns).mapIdx fun index (columnName, type) =>
    if index = 0 then definition columnName type ++ " PRIMARY KEY" else definition columnName type
  "CREATE TABLE IF NOT EXISTS " ++ quoteName name ++ " (" ++ String.intercalate ", " definitions ++ ")"

def addColumnsText (name : String) (columns : Definitions) : String :=
  let additions := columns.map fun (columnName, type) =>
    "ADD COLUMN IF NOT EXISTS " ++ quoteName columnName ++ " " ++ type.name
  "ALTER TABLE " ++ quoteName name ++ " " ++ String.intercalate ", " additions

end Relational

end ObjectStore
