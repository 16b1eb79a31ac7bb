import ObjectStore.Bson.Codec
import ObjectStore.Object
import ObjectStore.Update.Spelling

/-!
# Changes

Updates as changes of stored documents. Changes are grouped by operator, in the order in which the operators first occur, and the stamp of the update is always among the fields to set. An upsert also lists the fields that only an inserted document gets; a field that the update touches is left to the update, because one field may not stand under two operators.
-/

namespace ObjectStore

namespace Documents

inductive Operator where
  | set | unset | increment | multiply | max | min | push | pullAll | pop | setOnInsert
deriving DecidableEq, Inhabited

def Operator.name : Operator → String
  | set => "$set"
  | unset => "$unset"
  | increment => "$inc"
  | multiply => "$mul"
  | max => "$max"
  | min => "$min"
  | push => "$push"
  | pullAll => "$pullAll"
  | pop => "$pop"
  | setOnInsert => "$setOnInsert"

def Operator.ofUpdate : Update → Operator
  | .set _ => set
  | .unset => unset
  | .increment _ => increment
  | .multiply _ => multiply
  | .max _ => max
  | .min _ => min
  | .push _ => push
  | .removeAll _ => pullAll
  | .popFirst | .popLast => pop

/-- What an update hands to its operator. -/
def operand (update : Update) : Outcome Bson :=
  match update with
  | .set value | .max value | .min value | .push value => Bson.ofValue value
  | .increment value | .multiply value => do
    update.requireNumber value
    Bson.ofValue value
  | .unset => .ok (.string "")
  | .removeAll values => (Bson.ofValues values).map .array
  | .popFirst => .ok (.int32 (-1))
  | .popLast => .ok (.int32 1)

abbrev Changes := List (Operator × Document)

namespace Changes

def add : Changes → Operator → String → Bson → Changes
  | [], operator, name, operand => [(operator, [(name, operand)])]
  | (first, fields) :: rest, operator, name, operand =>
    if first = operator then (first, OrderedMap.insert fields name operand) :: rest
    else (first, fields) :: add rest operator name operand

/-- The id of a record is never updated. -/
def idIsFixed : Failure := .unsupportedOperation "the record id cannot be updated"

def addUpdate (changes : Changes) (key : String) (update : Update) : Outcome Changes :=
  if key = FieldName.physicalId then .error idIsFixed
  else (operand update).map (add changes (Operator.ofUpdate update) (Percent.escape key))

def ofUpdates (updates : Updates) (now : Instant) : Outcome Changes := do
  let changes ← updates.foldlM (fun changes (key, update) => addUpdate changes key update) []
  return add changes .set FieldName.physicalUpdatedAt (.instant now.millis)

/-- The fields that only an inserted document gets: its id if one is given, the stamp of its creation and the listed fields that the update does not touch. -/
def onInsert (updates : Updates) (setOnInsert : Fields) (id : Option String) (now : Instant) : Outcome Document := do
  let own := (id.map fun id => (FieldName.physicalId, Bson.string id)).toList
    ++ [(FieldName.physicalCreatedAt, .instant now.millis)]
  let listed ← Bson.ofFields (OrderedMap.filter (fun key _ => !OrderedMap.contains updates key) setOnInsert)
  return OrderedMap.extend own listed

def ofUpsert (updates : Updates) (setOnInsert : Fields) (id : Option String) (now : Instant) : Outcome Changes := do
  let changes ← ofUpdates updates now
  let inserted ← onInsert updates setOnInsert id now
  return changes ++ [(.setOnInsert, inserted)]

def document (changes : Changes) : Document :=
  changes.map fun (operator, fields) => (operator.name, .document fields)

end Changes

end Documents

end ObjectStore
