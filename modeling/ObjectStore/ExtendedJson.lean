import ObjectStore.Failure
import ObjectStore.Json.Printer
import ObjectStore.Json.Reader
import ObjectStore.Number.DecimalText
import ObjectStore.Number.DoubleReader
import ObjectStore.Calendar.Text
import ObjectStore.Text.Base64

/-!
# Extended JSON

Every value has a JSON form that reads back as the same value. A value that a plain JSON number or string would blur is wrapped into an object with a tag as its only name; an object that looks like such a wrapper is itself wrapped. Reading never fails: an object that is no well-formed wrapper is an ordinary object.
-/

namespace ObjectStore

namespace ExtendedJson

/-- The names that wrap a value. -/
inductive Tag where
  | long | unsignedLong | decimal | double | date | binary | calendarDate | timeOfDay | object
deriving DecidableEq

namespace Tag

def all : List Tag := [long, unsignedLong, decimal, double, date, binary, calendarDate, timeOfDay, object]

def name : Tag → String
  | long => "$numberLong"
  | unsignedLong => "$numberULong"
  | decimal => "$numberDecimal"
  | double => "$numberDouble"
  | date => "$date"
  | binary => "$binary"
  | calendarDate => "$calendarDate"
  | timeOfDay => "$timeOfDay"
  | object => "$object"

def ofName? (name : String) : Option Tag := all.find? fun tag => tag.name == name

def wrap (tag : Tag) (payload : Json) : Json := .object [(tag.name, payload)]

end Tag

/-- The largest integer that every double-based reader keeps. -/
def maxSafeInteger : Int := (twoTo 53 : Int) - 1

def looksWrapped {α : Type} : List (String × α) → Bool
  | [(name, _)] => (Tag.ofName? name).isSome
  | _ => false

/-- The names of the parts of a binary payload. -/
def base64Name : String := "base64"

def subTypeName : String := "subType"

/-- An instant: milliseconds when it has no finer part, RFC 3339 otherwise. -/
def encodeInstant (t : Instant) : Json :=
  if t.nanos % 1000000 = 0 then Tag.long.wrap (.string (toString t.millis))
  else .string (t.toText .full)

/-- The word for a double that JSON cannot write. -/
def nonFiniteWord (x : Double) : String :=
  if x.isNaN then "NaN" else if x.negative then "-Infinity" else "Infinity"

mutual

/-- The JSON form of a value. -/
def encode : Value → Json
  | .null => .null
  | .boolean flag => .boolean flag
  | .string text => .string text
  | .integer n =>
    if -maxSafeInteger ≤ n.toInt ∧ n.toInt ≤ maxSafeInteger then .integer n.toInt
    else Tag.long.wrap (.string (toString n.toInt))
  | .number x => if x.isFinite then .float x else Tag.double.wrap (.string (nonFiniteWord x))
  | .decimal d => Tag.decimal.wrap (.string d.toText)
  | .timestamp t => Tag.date.wrap (encodeInstant t)
  | .date d => Tag.calendarDate.wrap (.string d.toText)
  | .time t => Tag.timeOfDay.wrap (.string (t.toText .full))
  | .binary bytes =>
    Tag.binary.wrap (.object [(base64Name, .string (String.ofList (Base64.encode bytes))), (subTypeName, .string "00")])
  | .array items => .array (encodeItems items)
  | .object fields =>
    let object := Json.object (encodeFields fields)
    if looksWrapped fields then Tag.object.wrap object else object
termination_by structural value => value

def encodeItems : List Value → List Json
  | [] => []
  | item :: items => encode item :: encodeItems items
termination_by structural items => items

def encodeFields : List (String × Value) → List (String × Json)
  | [] => []
  | (key, value) :: fields => (key, encode value) :: encodeFields fields
termination_by structural fields => fields

end

/-- The instant of a date payload: wrapped milliseconds, plain milliseconds or RFC 3339. -/
def instant? : Json → Option Instant
  | .object [(name, .string text)] =>
    if name = Tag.long.name then
      (Numeral.int64? text.toList).bind fun millis => Instant.ofMillis? millis.toInt
    else none
  | .integer millis => if fitsBits 64 millis then Instant.ofMillis? millis else none
  | .string text => Instant.ofText? text.toList
  | _ => none

/-- The bytes of a binary payload: Base64 text and a subtype, in either order. -/
def bytes? (fields : List (String × Json)) : Option (List UInt8) :=
  match (OrderedMap.get? fields base64Name).bind Json.string?, (OrderedMap.get? fields subTypeName).bind Json.string? with
  | some text, some _ => if fields.length = 2 then Base64.decode? text.toList else none
  | _, _ => none

def double? (text : String) : Option Double :=
  if text = "Infinity" then some (Double.infinity false)
  else if text = "-Infinity" then some (Double.infinity true)
  else if text = "NaN" then some Double.nan
  else Double.ofText? text.toList

/-- The value that a tag gives a payload of its shape. The payload of an object wrapper is read elsewhere. -/
def unwrap? : Tag → Json → Option Value
  | .long, .string text => (Numeral.int64? text.toList).map .integer
  | .unsignedLong, .string text => (Numeral.uint64? text.toList).map fun n => Value.ofInt n
  | .decimal, .string text => (Decimal.ofText? text.toList).map .decimal
  | .double, .string text => (double? text).map .number
  | .date, payload => (instant? payload).map .timestamp
  | .calendarDate, .string text => (Date.ofText? text.toList).map .date
  | .timeOfDay, .string text => (TimeOfDay.ofText? text.toList).map .time
  | .binary, .object fields => (bytes? fields).map .binary
  | _, _ => none

mutual

/-- The value of a JSON form. -/
def decode : Json → Value
  | .null => .null
  | .boolean flag => .boolean flag
  | .string text => .string text
  | .integer n => Value.ofInt n
  | .float x => .number x
  | .array items => .array (decodeItems items)
  | .object [(name, .object inner)] =>
    match Tag.ofName? name with
    | some .object => .object (decodeFields inner)
    | some tag => (unwrap? tag (.object inner)).getD (.object [(name, decode (.object inner))])
    | none => .object [(name, decode (.object inner))]
  | .object [(name, payload)] =>
    ((Tag.ofName? name).bind fun tag => unwrap? tag payload).getD (.object [(name, decode payload)])
  | .object fields => .object (decodeFields fields)
termination_by structural json => json

def decodeItems : List Json → List Value
  | [] => []
  | item :: items => decode item :: decodeItems items
termination_by structural items => items

def decodeFields : List (String × Json) → List (String × Value)
  | [] => []
  | (key, json) :: fields => (key, decode json) :: decodeFields fields
termination_by structural fields => fields

end

def toText (value : Value) : String := (encode value).toText

def ofBytes? (bytes : List UInt8) : Option Value := (Json.ofBytes? bytes).map decode

end ExtendedJson

/-!
### Values in a JSON column

A relational table keeps only arrays and objects as JSON; scalars have columns of their own types.
-/

namespace ColumnJson

def encode (value : Value) : Outcome Json :=
  match value with
  | .array _ | .object _ => .ok (ExtendedJson.encode value)
  | scalar => .error (.unsupportedType scalar.kind "only arrays and objects are stored as JSON columns")

/-- The array or the object of a column, or null. -/
def decode (json : Json) : Outcome Value :=
  match ExtendedJson.decode json with
  | .array items => .ok (.array items)
  | .object fields => .ok (.object fields)
  | .null => .ok .null
  | scalar => .error (.serialization ("JSON column holds a bare " ++ scalar.kind.name))

end ColumnJson

end ObjectStore
