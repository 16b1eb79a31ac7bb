import ObjectStore.Column
import ObjectStore.Object
import ObjectStore.Retry
import ObjectStore.Wire.Value

/-!
# Queries on the wire

Predicates, updates, queries and objects, with the names of their choices.
-/

namespace ObjectStore

namespace Wire

def comparisons : Names Comparison :=
  [("eq", .equal), ("ne", .notEqual), ("lt", .lessThan), ("gt", .greaterThan), ("le", .lessOrEqual), ("ge", .greaterOrEqual)]

def patterns : Names TextPattern := [("starts", .startsWith), ("ends", .endsWith), ("contains", .contains)]

def sortOrders : Names SortOrder := [("asc", .ascending), ("desc", .descending)]

def returnings : Names Returning := [("before", .before), ("after", .after)]

def fieldTypes : Names FieldType :=
  [("boolean", .boolean), ("string", .string), ("integer", .integer), ("number", .number), ("decimal", .decimal),
    ("timestamp", .timestamp), ("date", .date), ("time", .time), ("binary", .binary), ("json", .json)]

def isolations : Names IsolationLevel :=
  [("default", .default), ("readCommitted", .readCommitted), ("repeatableRead", .repeatableRead), ("serializable", .serializable)]

def races : Names Race := [("DuplicateId", .duplicateId), ("DuplicateTable", .duplicateTable), ("Conflict", .conflict)]

def operand : Reader Operand := fun json =>
  ((member "key" text json).map .key).or ((member "lit" value json).map .literal)

def ofOperand : Operand → Json
  | .key name => .object [("key", .string name)]
  | .literal value => .object [("lit", ofValue value)]

/-- A predicate of a named form that holds no other predicates. -/
def comparisonForm (form : String) (parts : List Json) : Option Predicate :=
  match form, parts with
  | "cmp", [op, a, b] => do return .compare (← comparisons.read op) (← operand a) (← operand b)
  | "in", [a, b] => do return .elementOf (← operand a) (← operand b)
  | "nin", [a, b] => do return .notElementOf (← operand a) (← operand b)
  | "between", [v, a, b] => do return .between (← operand v) (← operand a) (← operand b)
  | "nbetween", [v, a, b] => do return .notBetween (← operand v) (← operand a) (← operand b)
  | "pattern", [p, key, t] => do return .pattern (← patterns.read p) (← text key) (← text t)
  | _, _ => none

mutual

def predicate : Json → Option Predicate
  | .object [(form, .array parts)] =>
    if form = "and" then (predicates parts).map .all
    else if form = "or" then (predicates parts).map .any
    else comparisonForm form parts
  | .object [(form, inner)] => if form = "not" then (predicate inner).map .not else none
  | _ => none
termination_by structural json => json

def predicates : List Json → Option (List Predicate)
  | [] => some []
  | part :: parts => do return (← predicate part) :: (← predicates parts)
termination_by structural parts => parts

end

mutual

def ofPredicate : Predicate → Json
  | .not inner => .object [("not", ofPredicate inner)]
  | .compare op a b => .object [("cmp", .array [comparisons.write op, ofOperand a, ofOperand b])]
  | .elementOf a b => .object [("in", ofList ofOperand [a, b])]
  | .notElementOf a b => .object [("nin", ofList ofOperand [a, b])]
  | .between v a b => .object [("between", ofList ofOperand [v, a, b])]
  | .notBetween v a b => .object [("nbetween", ofList ofOperand [v, a, b])]
  | .pattern p key t => .object [("pattern", .array [patterns.write p, .string key, .string t])]
  | .all parts => .object [("and", .array (ofPredicates parts))]
  | .any parts => .object [("or", .array (ofPredicates parts))]
termination_by structural predicate => predicate

def ofPredicates : List Predicate → List Json
  | [] => []
  | part :: parts => ofPredicate part :: ofPredicates parts
termination_by structural parts => parts

end

def update : Reader Update
  | .string "unset" => some .unset
  | .string "popFirst" => some .popFirst
  | .string "popLast" => some .popLast
  | .object [("set", operand)] => (value operand).map .set
  | .object [("inc", operand)] => (value operand).map .increment
  | .object [("mul", operand)] => (value operand).map .multiply
  | .object [("max", operand)] => (value operand).map .max
  | .object [("min", operand)] => (value operand).map .min
  | .object [("push", operand)] => (value operand).map .push
  | .object [("removeAll", operand)] => (list value operand).map .removeAll
  | _ => none

def updates : Reader Updates := map update

def ofUpdate : Update → Json
  | .unset => .string "unset"
  | .popFirst => .string "popFirst"
  | .popLast => .string "popLast"
  | .set value => .object [("set", ofValue value)]
  | .increment value => .object [("inc", ofValue value)]
  | .multiply value => .object [("mul", ofValue value)]
  | .max value => .object [("max", ofValue value)]
  | .min value => .object [("min", ofValue value)]
  | .push value => .object [("push", ofValue value)]
  | .removeAll values => .object [("removeAll", ofList ofValue values)]

def ofUpdates : Updates → Json := ofMap ofUpdate

/-- The names by which mutations of drafts go, where they differ from those of updates. -/
def mutationNames : Names String := [("increment", "inc"), ("multiply", "mul")]

def mutation : Reader (String × Update)
  | .array [.string "update", .string key, operation] => (update operation).map fun operation => (key, operation)
  | .array [.string method, .string key, operand] => do
    let form := (mutationNames.lookup method).getD method
    return (key, ← (update (.object [(form, operand)])).or (update (.string method)))
  | .array [method, .string key] => (update method).map fun operation => (key, operation)
  | _ => none

def mutations : Reader (List (String × Update)) := list mutation

def sortKeys : Reader SortKeys := map sortOrders.read

def texts : Reader (List String) := list text

def names : Reader NameSet := fun json => (texts json).map NameSet.ofList

/-- A query for many records; every member but the class may be missing. -/
def findQuery : Reader FindQuery := fun json => do
  let query : FindQuery :=
    { className := ← member "class" text json
      sort := (← optional "sort" sortKeys json).getD []
      skip := (← optional "skip" count json).getD 0
      limit := ← optional "limit" count json
      includes := ← optional "includes" names json }
  return ((← optional "filters" (list predicate) json).getD []).foldl FindQuery.addFilter query

/-- A query for one record; every member but the class may be missing. -/
def findOneQuery : Reader FindOneQuery := fun json => do
  let query : FindOneQuery :=
    { (← findQuery json).findOne with
      returning := (← optional "returning" returnings.read json).getD default
      setOnInsert := (← optional "setOnInsert" fields json).getD [] }
  return query.addUpdates ((← optional "update" updates json).getD [])

def ofFindQuery (query : FindQuery) : Json :=
  .object [("class", .string query.className), ("filters", ofList ofPredicate query.filters),
    ("sort", ofMap sortOrders.write query.sort), ("skip", ofNat query.skip), ("limit", ofOption ofNat query.limit),
    ("includes", ofOption ofTexts query.includes)]

def ofFindOneQuery (query : FindOneQuery) : Json :=
  .object [("class", .string query.className), ("filters", ofList ofPredicate query.filters),
    ("sort", ofMap sortOrders.write query.sort), ("includes", ofOption ofTexts query.includes),
    ("returning", returnings.write query.returning), ("update", ofUpdates query.update),
    ("setOnInsert", ofFields query.setOnInsert)]

/-- How a transaction is isolated and retried; what is missing is left as it is by default. -/
def transactionOptions : Reader TransactionOptions := fun json => do
  let options : TransactionOptions :=
    { isolation := (← optional "isolation" isolations.read json).getD .default
      retryOnConflict := (← optional "retry" flag json).getD false }
  return ((← optional "attempts" nat json).map options.withMaxAttempts).getD options

def columns : Reader (List Column) := fun json =>
  (list (pair text fieldTypes.read) json).map fun columns => columns.map fun (name, type) => { name, type }

def ofColumns : List Column → Json := ofList fun column => .array [.string column.name, fieldTypes.write column.type]

/-- An object, with its instants written by a function. -/
def ofObject (stamp : Instant → Json) (object : Object) : Json :=
  .object [("class", .string object.className), ("id", ofOption .string object.id),
    ("createdAt", ofOption stamp object.createdAt), ("updatedAt", ofOption stamp object.updatedAt),
    ("data", ofFields object.data)]

end Wire

end ObjectStore
