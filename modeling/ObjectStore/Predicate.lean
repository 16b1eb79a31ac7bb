import ObjectStore.Value.Order

/-!
# Predicates

Filters over the fields of a record, as trees of comparisons, memberships, ranges and text patterns. A key names a field; a literal is a value.
-/

namespace ObjectStore

inductive Operand where
  | key (name : String)
  | literal (value : Value)
deriving Inhabited

inductive Comparison where
  | equal | notEqual | lessThan | greaterThan | lessOrEqual | greaterOrEqual
deriving DecidableEq, Inhabited

/-- Where a text is looked for in a string field. -/
inductive TextPattern where
  | startsWith | endsWith | contains
deriving DecidableEq, Inhabited

inductive Predicate where
  | not (inner : Predicate)
  | compare (op : Comparison) (lhs rhs : Operand)
  /-- The element is among the elements of an array. -/
  | elementOf (element collection : Operand)
  | notElementOf (element collection : Operand)
  /-- The value lies between two bounds, bounds included. -/
  | between (value low high : Operand)
  | notBetween (value low high : Operand)
  | pattern (pattern : TextPattern) (key text : String)
  /-- The conjunction; that of no predicate holds always. -/
  | all (predicates : List Predicate)
  /-- The disjunction; that of no predicate holds never. -/
  | any (predicates : List Predicate)
deriving Inhabited

/-- The operator that gives the same result with its operands swapped. -/
def Comparison.flipped : Comparison → Comparison
  | equal => equal
  | notEqual => notEqual
  | lessThan => greaterThan
  | greaterThan => lessThan
  | lessOrEqual => greaterOrEqual
  | greaterOrEqual => lessOrEqual

namespace Operand

def keys : Operand → List String
  | key name => [name]
  | literal _ => []

def mapKeys (rename : String → String) : Operand → Operand
  | key name => key (rename name)
  | literal value => literal value

end Operand

namespace Predicate

/-- Joins a predicate to a conjunction, or makes one of the two. -/
def andAlso : Predicate → Predicate → Predicate
  | all list, other => all (list ++ [other])
  | first, other => all [first, other]

def orElse : Predicate → Predicate → Predicate
  | any list, other => any (list ++ [other])
  | first, other => any [first, other]

/-- Spells a range out as comparisons; every other predicate stays as it is. -/
def decompose : Predicate → Predicate
  | between value low high => all [compare .lessOrEqual low value, compare .lessOrEqual value high]
  | notBetween value low high => any [compare .lessThan value low, compare .greaterThan value high]
  | other => other

mutual

/-- The names of all fields that the predicate reads, in order and with repetitions. -/
def keys : Predicate → List String
  | not inner => keys inner
  | compare _ lhs rhs => lhs.keys ++ rhs.keys
  | elementOf element collection => element.keys ++ collection.keys
  | notElementOf element collection => element.keys ++ collection.keys
  | between value low high => value.keys ++ low.keys ++ high.keys
  | notBetween value low high => value.keys ++ low.keys ++ high.keys
  | pattern _ key _ => [key]
  | all list => keysOfList list
  | any list => keysOfList list
termination_by structural predicate => predicate

def keysOfList : List Predicate → List String
  | [] => []
  | first :: rest => keys first ++ keysOfList rest
termination_by structural list => list

end

mutual

def mapKeys (rename : String → String) : Predicate → Predicate
  | not inner => not (mapKeys rename inner)
  | compare op lhs rhs => compare op (lhs.mapKeys rename) (rhs.mapKeys rename)
  | elementOf element collection => elementOf (element.mapKeys rename) (collection.mapKeys rename)
  | notElementOf element collection => notElementOf (element.mapKeys rename) (collection.mapKeys rename)
  | between value low high => between (value.mapKeys rename) (low.mapKeys rename) (high.mapKeys rename)
  | notBetween value low high => notBetween (value.mapKeys rename) (low.mapKeys rename) (high.mapKeys rename)
  | pattern kind key text => pattern kind (rename key) text
  | all list => all (mapKeysOfList rename list)
  | any list => any (mapKeysOfList rename list)
termination_by structural predicate => predicate

def mapKeysOfList (rename : String → String) : List Predicate → List Predicate
  | [] => []
  | first :: rest => mapKeys rename first :: mapKeysOfList rename rest
termination_by structural list => list

end

/-- The conjunction of some filters: none for no filter, and a single filter as it is. -/
def conjunction? : List Predicate → Option Predicate
  | [] => none
  | [single] => some single
  | many => some (all many)

end Predicate

/-- A field, from which predicates on it are built. -/
structure Key where
  name : String

namespace Key

def id : Key := ⟨"id"⟩

def operand (key : Key) : Operand := .key key.name

def compareWith (key : Key) (op : Comparison) (value : Value) : Predicate :=
  .compare op key.operand (.literal value)

def eq (key : Key) (value : Value) : Predicate := key.compareWith .equal value

def ne (key : Key) (value : Value) : Predicate := key.compareWith .notEqual value

def lt (key : Key) (value : Value) : Predicate := key.compareWith .lessThan value

def gt (key : Key) (value : Value) : Predicate := key.compareWith .greaterThan value

def le (key : Key) (value : Value) : Predicate := key.compareWith .lessOrEqual value

def ge (key : Key) (value : Value) : Predicate := key.compareWith .greaterOrEqual value

/-- Compares the field with another field of the same record. -/
def compareKey (key : Key) (op : Comparison) (other : Key) : Predicate := .compare op key.operand other.operand

def isIn (key : Key) (values : List Value) : Predicate := .elementOf key.operand (.literal (.array values))

def notIn (key : Key) (values : List Value) : Predicate := .notElementOf key.operand (.literal (.array values))

/-- The field is an array with a given element. -/
def hasElement (key : Key) (value : Value) : Predicate := .elementOf (.literal value) key.operand

def between (key : Key) (low high : Value) : Predicate := .between key.operand (.literal low) (.literal high)

def notBetween (key : Key) (low high : Value) : Predicate := .notBetween key.operand (.literal low) (.literal high)

def startsWith (key : Key) (text : String) : Predicate := .pattern .startsWith key.name text

def endsWith (key : Key) (text : String) : Predicate := .pattern .endsWith key.name text

def contains (key : Key) (text : String) : Predicate := .pattern .contains key.name text

end Key

end ObjectStore
