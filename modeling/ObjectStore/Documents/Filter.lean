import ObjectStore.Bson.Codec
import ObjectStore.Predicate.Evaluate

/-!
# Filters

Predicates as filters on stored documents. A filter compares a field with a constant only; a predicate that relates two fields has none. What a predicate says of literals alone is decided at once.
-/

namespace ObjectStore

namespace Documents

/-- A filter on documents. Fields go by the names that records have. -/
inductive Filter where
  | everything
  /-- The same answer for every document. -/
  | const (flag : Bool)
  | compare (key : String) (op : Comparison) (value : Bson)
  | oneOf (key : String) (values : List Bson)
  | noneOf (key : String) (values : List Bson)
  | hasElement (key : String) (element : Bson)
  | lacksElement (key : String) (element : Bson)
  /-- A field is a text in which a regular expression finds a match. -/
  | search (key regex : String)
  | not (inner : Filter)
  | all (parts : List Filter)
  | any (parts : List Filter)
deriving Inhabited

def regexSigns : List Char := "\\^$.|?*+()[]\x7b\x7d-/".toList

/-- The regular expression that matches a text literally. -/
def escapeRegex (text : String) : String :=
  String.ofList (text.toList.flatMap fun c => if regexSigns.contains c then ['\\', c] else [c])

def regexOf : TextPattern → String → String
  | .startsWith, text => "^" ++ escapeRegex text
  | .endsWith, text => escapeRegex text ++ "$"
  | .contains, text => escapeRegex text

namespace Filter

def relatesFields : Failure := .unsupportedOperation "comparing two fields is not supported by MongoDB filters"

/-- The filter of a predicate without keys. -/
def decided (predicate : Predicate) : Filter := const (predicate.holds [])

/-- A comparison. The key comes to stand on the left. -/
def ofCompare (op : Comparison) : Operand → Operand → Outcome Filter
  | .key key, .literal value => (Bson.ofValue value).map (compare key op)
  | .literal value, .key key => (Bson.ofValue value).map (compare key op.flipped)
  | .key _, .key _ => .error relatesFields
  | .literal a, .literal b => .ok (decided (.compare op (.literal a) (.literal b)))

/-- Membership of an element in a collection. A literal that is no array holds nothing. -/
def ofElement : Operand → Operand → Outcome Filter
  | .key key, .literal (.array values) => (Bson.ofValues values).map (oneOf key)
  | .key _, .literal _ => .ok (const false)
  | .literal value, .key key => (Bson.ofValue value).map (hasElement key)
  | .key _, .key _ => .error relatesFields
  | .literal a, .literal b => .ok (decided (.elementOf (.literal a) (.literal b)))

def ofNoElement : Operand → Operand → Outcome Filter
  | .key key, .literal (.array values) => (Bson.ofValues values).map (noneOf key)
  | .key _, .literal _ => .ok (const true)
  | .literal value, .key key => (Bson.ofValue value).map (lacksElement key)
  | .key _, .key _ => .error relatesFields
  | .literal a, .literal b => .ok (decided (.not (.elementOf (.literal a) (.literal b))))

mutual

def ofPredicate : Predicate → Outcome Filter
  | .not inner => (ofPredicate inner).map .not
  | .compare op a b => ofCompare op a b
  | .elementOf element collection => ofElement element collection
  | .notElementOf element collection => ofNoElement element collection
  | .between value low high => do
    let lower ← ofCompare .lessOrEqual low value
    let upper ← ofCompare .lessOrEqual value high
    return .all [lower, upper]
  | .notBetween value low high => do
    let lower ← ofCompare .lessThan value low
    let upper ← ofCompare .greaterThan value high
    return .any [lower, upper]
  | .pattern pattern key text => .ok (search key (regexOf pattern text))
  | .all parts => (ofPredicates parts).map fun parts => if parts.isEmpty then everything else .all parts
  | .any parts => (ofPredicates parts).map fun parts => if parts.isEmpty then const false else .any parts
termination_by structural predicate => predicate

def ofPredicates : List Predicate → Outcome (List Filter)
  | [] => .ok []
  | part :: parts => do
    let first ← ofPredicate part
    let rest ← ofPredicates parts
    return first :: rest
termination_by structural parts => parts

end

/-- The filter of an optional predicate; none holds of everything. -/
def ofOptional : Option Predicate → Outcome Filter
  | some predicate => ofPredicate predicate
  | none => .ok everything

def operator : Comparison → String
  | .equal => "$eq"
  | .notEqual => "$ne"
  | .lessThan => "$lt"
  | .greaterThan => "$gt"
  | .lessOrEqual => "$lte"
  | .greaterOrEqual => "$gte"

def elementCondition (element : Bson) : Document := [("$elemMatch", .document [("$eq", element)])]

def onField (key : String) (condition : Document) : Document := [(Percent.escape key, .document condition)]

mutual

def document : Filter → Document
  | everything => []
  | const flag => [("$expr", .boolean flag)]
  | compare key op value => onField key [(operator op, value)]
  | oneOf key values => onField key [("$in", .array values)]
  | noneOf key values => onField key [("$nin", .array values)]
  | hasElement key element => onField key (elementCondition element)
  | lacksElement key element => onField key [("$not", .document (elementCondition element))]
  | search key regex => onField key [("$regex", .string regex)]
  | not inner => [("$nor", .array [.document (document inner)])]
  | all parts => [("$and", .array (documents parts))]
  | any parts => [("$or", .array (documents parts))]
termination_by structural filter => filter

def documents : List Filter → List Bson
  | [] => []
  | part :: parts => .document (document part) :: documents parts
termination_by structural parts => parts

end

end Filter

end Documents

end ObjectStore
