import ObjectStore.Update

/-!
# Columns

The storage type of a field, inferred from the values written to it.
-/

namespace ObjectStore

/-- A storage type, independent of any backend. -/
inductive FieldType where
  | boolean | string | integer | number | decimal | timestamp | date | time | binary
  /-- Arrays and objects, kept as one document. -/
  | json
deriving DecidableEq, Inhabited

namespace FieldType

/-- The storage type that a value needs. Null needs none. -/
def ofValue? : Value → Option FieldType
  | .null => none
  | .boolean _ => some boolean
  | .string _ => some string
  | .integer _ => some integer
  | .number _ => some number
  | .decimal _ => some decimal
  | .timestamp _ => some timestamp
  | .date _ => some date
  | .time _ => some time
  | .binary _ => some binary
  | .array _ | .object _ => some json

/-- The storage type that a field needs for an update to work on it. -/
def ofUpdate? : Update → Option FieldType
  | .set value | .increment value | .multiply value | .max value | .min value => ofValue? value
  | .push _ | .removeAll _ => some json
  | .unset | .popFirst | .popLast => none

def kind : FieldType → Value.Kind
  | boolean => .boolean
  | string => .string
  | integer => .integer
  | number => .number
  | decimal => .decimal
  | timestamp => .timestamp
  | date => .date
  | time => .time
  | binary => .binary
  | json => .object

end FieldType

structure Column where
  name : String
  type : FieldType
deriving DecidableEq, Inhabited

namespace Column

def ofFields (fields : Fields) : List Column :=
  fields.filterMap fun (name, value) => (FieldType.ofValue? value).map fun type => ⟨name, type⟩

def ofUpdates (updates : Updates) : List Column :=
  updates.filterMap fun (name, update) => (FieldType.ofUpdate? update).map fun type => ⟨name, type⟩

end Column

end ObjectStore
