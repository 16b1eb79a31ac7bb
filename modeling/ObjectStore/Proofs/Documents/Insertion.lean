import ObjectStore.Bson.Codec
import ObjectStore.Update

/-!
# What an upsert inserts

The document that a document database inserts when the filter of an upsert selects none, field by field. A field starts from the equality that the filter asks of it, is then set if it is listed for inserted documents, and is at last changed by every operator that lists it.
-/

namespace ObjectStore

namespace Documents

mutual

/-- The equalities that a filter asks for, through conjunctions. -/
def equalitiesOf : List (String × Bson) → List (String × Bson)
  | [] => []
  | (name, clause) :: clauses => equalitiesOfClause name clause ++ equalitiesOf clauses
termination_by structural clauses => clauses

def equalitiesOfClause (name : String) : Bson → List (String × Bson)
  | .document [("$eq", value)] => [(name, value)]
  | .array filters => if name = "$and" then equalitiesOfEach filters else []
  | _ => []
termination_by structural clause => clause

def equalitiesOfEach : List Bson → List (String × Bson)
  | [] => []
  | .document clauses :: filters => equalitiesOf clauses ++ equalitiesOfEach filters
  | _ :: filters => equalitiesOfEach filters
termination_by structural filters => filters

end

/-- The update that an operator makes with its operand. -/
def updateOf? (operator : String) (operand : Bson) : Option Update :=
  match operator, Bson.toValue operand with
  | "$set", .ok value => some (.set value)
  | "$unset", _ => some .unset
  | "$inc", .ok value => some (.increment value)
  | "$mul", .ok value => some (.multiply value)
  | "$max", .ok value => some (.max value)
  | "$min", .ok value => some (.min value)
  | "$push", .ok value => some (.push value)
  | "$pullAll", .ok (.array values) => some (.removeAll values)
  | "$pop", .ok (.integer n) => if n = -1 then some .popFirst else if n = 1 then some .popLast else none
  | _, _ => none

def unknownOperator (operator : String) : Failure := .unsupportedOperation ("unknown operator " ++ operator)

/-- A field after one operator of a document of changes. -/
def changeField (name : String) (current : Option Value) : String × Bson → Outcome (Option Value)
  | (operator, .document fields) =>
    if operator = "$setOnInsert" then .ok current
    else
      match OrderedMap.get? fields name with
      | none => .ok current
      | some operand =>
        match updateOf? operator operand with
        | some update => update.apply current
        | none => .error (unknownOperator operator)
  | (operator, _) => .error (unknownOperator operator)

/-- The fields that a document of changes lists for inserted documents. -/
def listedFields (changes : Document) : Document :=
  match OrderedMap.get? changes "$setOnInsert" with
  | some (.document fields) => fields
  | _ => []

/-- A field before the operators. -/
def startField (filter changes : Document) (name : String) : Outcome (Option Value) :=
  match OrderedMap.get? (OrderedMap.extend (equalitiesOf filter) (listedFields changes)) name with
  | some bson => (Bson.toValue bson).map some
  | none => .ok none

/-- A field of the inserted document. -/
def insertedField (filter changes : Document) (name : String) : Outcome (Option Value) := do
  let start ← startField filter changes name
  changes.foldlM (changeField name) start

end Documents

end ObjectStore
