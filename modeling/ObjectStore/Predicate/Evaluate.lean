import ObjectStore.Predicate

/-!
# Evaluating predicates

What a predicate means on a record. A missing field reads as null; null orders with nothing, but it equals null; a pattern holds of strings only, and nothing is an element of anything but an array.
-/

namespace ObjectStore

def Operand.resolve (record : Fields) : Operand → Value
  | .key name => (OrderedMap.get? record name).getD .null
  | .literal value => value

def Comparison.holds (op : Comparison) (a b : Value) : Bool :=
  match op with
  | .equal => a.looselyEquals b
  | .notEqual => !a.looselyEquals b
  | op =>
    if a.isNull || b.isNull then false
    else
      match op, a.compare? b with
      | .lessThan, some .lt => true
      | .greaterThan, some .gt => true
      | .lessOrEqual, some .lt | .lessOrEqual, some .eq => true
      | .greaterOrEqual, some .gt | .greaterOrEqual, some .eq => true
      | _, _ => false

/-- Whether a value is loosely equal to an element of an array. -/
def Value.hasElement (collection element : Value) : Bool :=
  match collection with
  | .array items => items.any fun item => item.looselyEquals element
  | _ => false

def TextPattern.occurs (part : List Char) : List Char → Bool
  | [] => part.isEmpty
  | c :: rest => part.isPrefixOf (c :: rest) || occurs part rest

def TextPattern.holds (pattern : TextPattern) (string text : String) : Bool :=
  match pattern with
  | startsWith => text.toList.isPrefixOf string.toList
  | endsWith => text.toList.isSuffixOf string.toList
  | contains => occurs text.toList string.toList

namespace Predicate

def patternHolds (record : Fields) (pattern : TextPattern) (key text : String) : Bool :=
  match OrderedMap.get? record key with
  | some (.string string) => pattern.holds string text
  | _ => false

mutual

def holds (record : Fields) : Predicate → Bool
  | not inner => !holds record inner
  | compare op lhs rhs => op.holds (lhs.resolve record) (rhs.resolve record)
  | elementOf element collection => (collection.resolve record).hasElement (element.resolve record)
  | notElementOf element collection => !(collection.resolve record).hasElement (element.resolve record)
  | between value low high =>
    Comparison.lessOrEqual.holds (low.resolve record) (value.resolve record) &&
      Comparison.lessOrEqual.holds (value.resolve record) (high.resolve record)
  | notBetween value low high =>
    Comparison.lessThan.holds (value.resolve record) (low.resolve record) ||
      Comparison.greaterThan.holds (value.resolve record) (high.resolve record)
  | pattern kind key text => patternHolds record kind key text
  | all list => allHold record list
  | any list => anyHolds record list
termination_by structural predicate => predicate

def allHold (record : Fields) : List Predicate → Bool
  | [] => true
  | first :: rest => holds record first && allHold record rest
termination_by structural list => list

def anyHolds (record : Fields) : List Predicate → Bool
  | [] => false
  | first :: rest => holds record first || anyHolds record rest
termination_by structural list => list

end

def passes (filter : Option Predicate) (record : Fields) : Bool :=
  match filter with
  | some predicate => predicate.holds record
  | none => true

end Predicate

end ObjectStore
