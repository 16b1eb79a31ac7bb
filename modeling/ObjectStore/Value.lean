import ObjectStore.OrderedMap
import ObjectStore.Number.Decimal
import ObjectStore.Calendar.Instant

/-!
# Values

The schemaless datum that callers and backends exchange. The kind of a value is part of it: the integer 1, the number 1.0 and the decimal 1 are three values.
-/

namespace ObjectStore

/-- A schemaless datum. The names of an object are distinct in every value that the library builds. -/
inductive Value where
  | null
  | boolean (flag : Bool)
  | string (text : String)
  /-- A signed integer of 64 bits. -/
  | integer (n : Int64)
  /-- A double, infinities and NaN included. -/
  | number (x : Double)
  | decimal (d : Decimal)
  | timestamp (t : Instant)
  | date (d : Date)
  | time (t : TimeOfDay)
  | binary (bytes : List UInt8)
  | array (items : List Value)
  | object (fields : List (String × Value))
deriving Inhabited

abbrev Fields := OrderedMap Value

namespace Value

inductive Kind where
  | null | boolean | string | integer | number | decimal | timestamp | date | time | binary | array | object
deriving DecidableEq, Inhabited, Hashable

def Kind.name : Kind → String
  | .null => "null"
  | .boolean => "boolean"
  | .string => "string"
  | .integer => "integer"
  | .number => "number"
  | .decimal => "decimal"
  | .timestamp => "timestamp"
  | .date => "date"
  | .time => "time"
  | .binary => "binary"
  | .array => "array"
  | .object => "object"

def kind : Value → Kind
  | null => .null
  | boolean _ => .boolean
  | string _ => .string
  | integer _ => .integer
  | number _ => .number
  | decimal _ => .decimal
  | timestamp _ => .timestamp
  | date _ => .date
  | time _ => .time
  | binary _ => .binary
  | array _ => .array
  | object _ => .object

def isNull : Value → Bool
  | null => true
  | _ => false

def isNumeric : Value → Bool
  | integer _ | number _ | decimal _ => true
  | _ => false

def boolean? : Value → Option Bool
  | boolean flag => some flag
  | _ => none

def string? : Value → Option String
  | string text => some text
  | _ => none

def array? : Value → Option (List Value)
  | array items => some items
  | _ => none

def object? : Value → Option Fields
  | object fields => some fields
  | _ => none

/-- The integer of an integer or of a whole decimal that fits. -/
def toInt64? : Value → Option Int64
  | integer n => some n
  | decimal d => d.toInt64?
  | _ => none

/-- A double for a numeric value: the nearest to an integer, the number itself, or one close to a decimal. -/
def toDouble? : Value → Option Double
  | integer n => some (Double.ofInt n.toInt)
  | number x => some x
  | decimal d => some d.toDouble
  | _ => none

/-- The exact decimal of a numeric value; an infinity and a NaN have none. -/
def toDecimal? : Value → Option Decimal
  | integer n => some (Decimal.ofInt n.toInt)
  | number x => Decimal.ofDouble? x
  | decimal d => some d
  | _ => none

/-- The value of an integer of any size: an integer when it fits and a decimal otherwise. -/
def ofInt (n : Int) : Value :=
  match int64? n with
  | some n => integer n
  | none => decimal (Decimal.ofInt n)

def field? (value : Value) (key : String) : Option Value :=
  value.object?.bind fun fields => OrderedMap.get? fields key

/-- The object with a field written. Anything but an object is replaced by an object of that one field. -/
def withField (value : Value) (key : String) (field : Value) : Value :=
  object (OrderedMap.insert (value.object?.getD []) key field)

/-- The object without a field; anything but an object becomes the empty object. -/
def withoutField (value : Value) (key : String) : Value :=
  object (OrderedMap.erase (value.object?.getD []) key)

/-- A number as a wire format classifies it. -/
inductive NumberKind where
  | signed (n : Int64)
  | unsigned (n : UInt64)
  | float (x : Double)
  | decimal (d : Decimal)

def numberKind? : Value → Option NumberKind
  | integer n => some (.signed n)
  | number x => some (.float x)
  | decimal d => some (.decimal d)
  | _ => none

/-- The value of a classified number. An unsigned number that fits becomes an integer, a greater one a decimal. -/
def ofNumberKind : NumberKind → Value
  | .signed n => integer n
  | .unsigned n => ofInt n.toNat
  | .float x => number x
  | .decimal d => decimal d

end Value

end ObjectStore
