import ObjectStore.Value
import ObjectStore.Text.Numeral
import ObjectStore.Wire.Form

/-!
# Values on the wire

Null, booleans, strings and integers are themselves, arrays are arrays, and every other value is an object with one member that names its form.
-/

namespace ObjectStore

namespace Wire

/-- A double by the 16 hexadecimal digits of its bits. -/
def double : Reader Double := fun json => do return ⟨UInt64.ofNat (← hexNumber? (← text json).toList)⟩

def decimal : Reader Decimal := fun json => do
  let (digits, scale) ← pair text int json
  return ⟨← Numeral.integer? digits.toList, scale⟩

def instant : Reader Instant := fun json => do
  let (seconds, nanos) ← pair int nat json
  Instant.ofParts? seconds nanos

def date : Reader Date
  | .array [year, month, day] => do Date.ofParts? (← int year) (← nat month) (← nat day)
  | _ => none

def time : Reader TimeOfDay
  | .array [hour, minute, second, nanos] => do TimeOfDay.ofParts? (← nat hour) (← nat minute) (← nat second) (← nat nanos)
  | _ => none

/-- A value of a named form that holds no other values. -/
def scalar (form : String) (json : Json) : Option Value :=
  match form with
  | "f" => (double json).map .number
  | "d" => (decimal json).map .decimal
  | "t" => (instant json).map .timestamp
  | "date" => (date json).map .date
  | "time" => (time json).map .time
  | "b" => (bytes json).map .binary
  | _ => none

mutual

def value : Json → Option Value
  | .null => some .null
  | .boolean flag => some (.boolean flag)
  | .string text => some (.string text)
  | .integer n => some (.integer (Int64.ofInt n))
  | .float _ => none
  | .array items => (values items).map .array
  | .object [(form, .array entries)] =>
    if form = "o" then (entriesOf entries).map fun entries => .object (OrderedMap.ofList entries)
    else scalar form (.array entries)
  | .object [(form, payload)] => scalar form payload
  | .object _ => none
termination_by structural json => json

def values : List Json → Option (List Value)
  | [] => some []
  | item :: items => do return (← value item) :: (← values items)
termination_by structural items => items

def entriesOf : List Json → Option (List (String × Value))
  | [] => some []
  | .array [.string key, item] :: rest => do return (key, ← value item) :: (← entriesOf rest)
  | _ => none
termination_by structural entries => entries

end

def fields : Reader Fields := map value

/-- A value or the word for none. -/
def optionalValue : Reader (Option Value)
  | .string _ => some none
  | json => (member "some" value json).map some

def ofDouble (x : Double) : Json := .string (hexText x.canonicalBits.toNat 16)

def ofDecimal (d : Decimal) : Json :=
  if d.digits = 0 then .array [.string "0", .integer 0] else .array [.string (toString d.digits), .integer d.scale]

def ofInstant (t : Instant) : Json := .array [.integer t.seconds, .integer t.nanos]

mutual

def ofValue : Value → Json
  | .null => .null
  | .boolean flag => .boolean flag
  | .string text => .string text
  | .integer n => .integer n.toInt
  | .number x => .object [("f", ofDouble x)]
  | .decimal d => .object [("d", ofDecimal d)]
  | .timestamp t => .object [("t", ofInstant t)]
  | .date d => .object [("date", .array [.integer d.year, .integer d.month, .integer d.day])]
  | .time t => .object [("time", .array [.integer t.hour, .integer t.minute, .integer t.second, .integer t.nanos])]
  | .binary bytes => .object [("b", ofBytes bytes)]
  | .array items => .array (ofValues items)
  | .object fields => .object [("o", .array (ofEntries fields))]
termination_by structural value => value

def ofValues : List Value → List Json
  | [] => []
  | item :: items => ofValue item :: ofValues items
termination_by structural items => items

def ofEntries : List (String × Value) → List Json
  | [] => []
  | (key, value) :: fields => .array [.string key, ofValue value] :: ofEntries fields
termination_by structural fields => fields

end

def ofFields : Fields → Json := ofMap ofValue

def ofOptionalValue : Option Value → Json
  | some value => .object [("some", ofValue value)]
  | none => .string "none"

end Wire

end ObjectStore
