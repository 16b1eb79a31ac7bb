import ObjectStore.Object
import ObjectStore.Relational.Table

/-!
# Rows

Rows as the server returns them, and their reading as records. A column is read by the type that the server gives it; a numeric column arrives as text and is told from a plain text by the table. Null columns are left out, like absent fields.
-/

namespace ObjectStore

namespace Relational

inductive Cell where
  | null
  | scalar (value : Value)
  /-- JSON text, which need not be well formed. -/
  | json (text : String)
deriving Inhabited

/-- The rows of a result: the names and types of the columns, and the cells of every row. -/
structure Rows where
  columns : List (String × String) := []
  cells : List (List Cell) := []
deriving Inhabited

/-- The decimal of a numeric column. The words for what is no number have none. -/
def numericOfText (text : String) : Outcome Decimal :=
  match Decimal.ofText? text.toList with
  | some d => .ok d
  | none => .error (.serialization s!"NUMERIC {text} has no decimal representation")

namespace Cell

/-- The types whose cells are read as they are. -/
def scalarTypes : List String :=
  ["bool", "int2", "int4", "int8", "float4", "float8", "timestamptz", "timestamp", "date", "time", "bytea"]

def textTypes : List String := ["text", "varchar", "bpchar", "name"]

def jsonTypes : List String := ["json", "jsonb"]

def unreadable (column : String) : Failure := .backend none ("error deserializing column " ++ column)

/-- The value of a cell by the type of its column; null is no value. -/
def decode (column type : String) (declared : Option SqlType) (cell : Cell) : Outcome (Option Value) :=
  if type = "text" ∧ declared = some .numeric then
    match cell with
    | null => .ok none
    | scalar (.string text) => (numericOfText text).map fun d => some (.decimal d)
    | _ => .error (unreadable column)
  else if textTypes.contains type || scalarTypes.contains type then
    match cell with
    | null => .ok none
    | scalar (.number x) => .ok (some (.number (if type = "float4" then x.roundToSingle else x)))
    | scalar value => .ok (some value)
    | json _ => .error (unreadable column)
  else if jsonTypes.contains type then
    match cell with
    | null => .ok none
    | scalar _ => .error (unreadable column)
    | json text =>
      match Json.ofText? text.toList with
      | none => .error (unreadable column)
      | some document => (ColumnJson.decode document).map fun value => if value.isNull then none else some value
  else .error (.serialization s!"column {column} has unsupported type {type}")

end Cell

namespace Rows

def recordOf (table : Table) : List (String × String) → List Cell → Outcome Fields
  | (name, type) :: columns, cell :: cells => do
    let value? ← cell.decode name type (table.column? name)
    let rest ← recordOf table columns cells
    return (value?.map fun value => (name, value)).toList ++ rest
  | _, _ => .ok []

def objectOf (className : String) (table : Table) (rows : Rows) (row : List Cell) : Outcome Object := do
  let entries ← recordOf table rows.columns row
  Object.ofRecord className (OrderedMap.ofList entries)

def firstObject (className : String) (table : Table) (rows : Rows) : Outcome (Option Object) :=
  match rows.cells with
  | [] => .ok none
  | row :: _ => (objectOf className table rows row).map some

/-- The first cell of a row, of a type that was asked for. -/
def firstCell (types : List String) (rows : Rows) (row : List Cell) : Outcome Value :=
  match rows.columns, row with
  | (name, type) :: _, .scalar value :: _ => if types.contains type then .ok value else .error (Cell.unreadable name)
  | _, _ => .error (Cell.unreadable "0")

end Rows

end Relational

end ObjectStore
