import ObjectStore.Relational.Statement
import ObjectStore.Relational.Table
import ObjectStore.Update.Spelling

/-!
# Assignments

Updates as assignments to the columns of a table. An update of a missing column is left out when it would change nothing and refused otherwise.
-/

namespace ObjectStore

namespace Relational

/-- The new value of a column, computed from its old one. -/
inductive Assignment where
  | set (value : Value)
  | null
  /-- The sum; null counts as zero. -/
  | add (delta : Value)
  /-- The product; null counts as zero. -/
  | multiply (factor : Value)
  | greatest (value : Value)
  | least (value : Value)
  /-- A JSON array with one more element; null counts as the empty array. -/
  | append (element : Value)
  /-- A JSON array without the elements that equal a listed one; null stays null. -/
  | remove (elements : List Value)
  /-- A JSON array without the element at a position. -/
  | dropFirst
  | dropLast
deriving Inhabited

namespace Assignment

/-- Whether an update of an absent field changes nothing. -/
def isIdle : Update → Bool
  | .unset | .popFirst | .popLast | .removeAll _ | .set .null => true
  | _ => false

def ofUpdate (update : Update) : Outcome Assignment :=
  match update with
  | .set value => .ok (set value)
  | .unset => .ok null
  | .increment delta => (update.requireNumber delta).map fun _ => add delta
  | .multiply factor => (update.requireNumber factor).map fun _ => multiply factor
  | .max value => .ok (greatest value)
  | .min value => .ok (least value)
  | .push value => .ok (append value)
  | .removeAll values => .ok (remove values)
  | .popFirst => .ok dropFirst
  | .popLast => .ok dropLast

def noColumn (table : Table) (key : String) : Failure :=
  .unsupportedOperation s!"column `{key}` does not exist in table `{table.name}`"

/-- The assignment of an update, if it can change anything. -/
def ofUpdate? (table : Table) (key : String) (update : Update) : Outcome (Option Assignment) :=
  if table.hasColumn key then (ofUpdate update).map some
  else if isIdle update then .ok none
  else .error (noColumn table key)

def ofUpdates (table : Table) : Updates → Outcome (List (String × Assignment))
  | [] => .ok []
  | (key, update) :: rest => do
    let assignment? ← ofUpdate? table key update
    let others ← ofUpdates table rest
    return (assignment?.map fun assignment => (key, assignment)).toList ++ others

def pieces (column : String) : Assignment → Pieces
  | set value => [.value value]
  | null => [.sql "NULL"]
  | add delta => [.sql "COALESCE(", .name column, .sql ", 0) + ", .value delta]
  | multiply factor => [.sql "COALESCE(", .name column, .sql ", 0) * ", .value factor]
  | greatest value => [.sql "GREATEST(", .name column, .sql ", ", .value value, .sql ")"]
  | least value => [.sql "LEAST(", .name column, .sql ", ", .value value, .sql ")"]
  | append element => [.sql "COALESCE(", .name column, .sql ", '[]'::jsonb) || ", .value (.array [element])]
  | remove elements =>
    [.sql "CASE WHEN ", .name column,
      .sql " IS NULL THEN NULL ELSE COALESCE((SELECT jsonb_agg(element ORDER BY position) FROM jsonb_array_elements(",
      .name column, .sql ") WITH ORDINALITY AS items(element, position) WHERE element NOT IN (SELECT jsonb_array_elements(",
      .value (.array elements), .sql "))), '[]'::jsonb) END"]
  | dropFirst => [.name column, .sql " - 0"]
  | dropLast => [.name column, .sql " - (-1)"]

/-- The list of assignments: those of some updates and then the stamp. -/
def listPieces (table : Table) (updates : Updates) (now : Value) : Outcome Pieces := do
  let assignments ← ofUpdates table updates
  let stamped := assignments ++ [(FieldName.physicalUpdatedAt, set now)]
  return Pieces.join ", " (stamped.map fun (column, assignment) => .name column :: .sql " = " :: assignment.pieces column)

end Assignment

end Relational

end ObjectStore
