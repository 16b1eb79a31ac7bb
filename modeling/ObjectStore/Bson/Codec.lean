import ObjectStore.Bson
import ObjectStore.ExtendedJson
import ObjectStore.Text.Percent

/-!
# Values as BSON

Most values have a BSON kind of their own. A date and a time of day have none and are kept as documents of one field, named by the tag that extended JSON gives them; an object that would look like such a document is itself wrapped. All names are escaped. An instant loses what is below a millisecond, and everything else reads back as it was.
-/

namespace ObjectStore

open ExtendedJson (Tag)

namespace Bson

/-- The tags that have a meaning inside a document. -/
def tags : List Tag := [.calendarDate, .timeOfDay, .object]

def tagged (tag : Tag) (payload : Bson) : Bson := .document [(Percent.escape tag.name, payload)]

/-- Whether an object has one field only and that is named as a tag. -/
def looksTagged {α : Type} : List (String × α) → Bool
  | [(name, _)] => tags.any fun tag => tag.name == name
  | _ => false

/-- The decimal of 128 bits that is the same number. -/
def ofDecimal (d : Decimal) : Outcome Bson :=
  match Decimal128.ofDecimal? d with
  | some d => .ok (.decimal128 d)
  | none => .error (.unsupportedType .decimal (d.toText ++ " does not fit a 128-bit decimal"))

/-- The subtype of binary data that means nothing in particular. -/
def plainSubtype : UInt8 := 0

mutual

def ofValue : Value → Outcome Bson
  | .null => .ok .null
  | .boolean flag => .ok (.boolean flag)
  | .string text => .ok (.string text)
  | .integer n => .ok (.int64 n)
  | .number x => .ok (.double x)
  | .decimal d => ofDecimal d
  | .timestamp t => .ok (.instant t.millis)
  | .date d => .ok (tagged .calendarDate (.string d.toText))
  | .time t => .ok (tagged .timeOfDay (.string (t.toText .full)))
  | .binary bytes => .ok (.binary plainSubtype bytes)
  | .array items => (ofValues items).map .array
  | .object fields => do
    let document ← ofFields fields
    return if looksTagged fields then tagged .object (.document document) else .document document
termination_by structural value => value

def ofValues : List Value → Outcome (List Bson)
  | [] => .ok []
  | item :: items => do
    let first ← ofValue item
    let rest ← ofValues items
    return first :: rest
termination_by structural items => items

def ofFields : List (String × Value) → Outcome (List (String × Bson))
  | [] => .ok []
  | (name, value) :: fields => do
    let first ← ofValue value
    let rest ← ofFields fields
    return (Percent.escape name, first) :: rest
termination_by structural fields => fields

end

def toInstant (millis : Int) : Outcome Instant :=
  match Instant.ofMillis? millis with
  | some t => .ok t
  | none => .error (.serialization ("BSON datetime " ++ toString millis ++ " is out of range"))

def toDecimal (d : Decimal128) : Outcome Decimal :=
  match d.toDecimal? with
  | some d => .ok d
  | none => .error (.serialization ("Decimal128 " ++ d.toText ++ " cannot be represented as a decimal"))

def unsupported (bson : Bson) : Failure :=
  .serialization ("BSON type " ++ bson.foreignKind?.getD "" ++ " is not supported")

/-- The value of a text under a tag, unless the text is malformed. -/
def untagged? (name text : String) : Option Value :=
  if name = Tag.calendarDate.name then (Date.ofText? text.toList).map .date
  else if name = Tag.timeOfDay.name then (TimeOfDay.ofFullText? text.toList).map .time
  else none

mutual

def toValue : Bson → Outcome Value
  | .null | .undefined => .ok .null
  | .boolean flag => .ok (.boolean flag)
  | .string text => .ok (.string text)
  | .int32 n => .ok (.integer n.toInt64)
  | .int64 n => .ok (.integer n)
  | .double x => .ok (.number x)
  | .decimal128 d => (toDecimal d).map .decimal
  | .instant millis => (toInstant millis).map .timestamp
  | .binary _ bytes => .ok (.binary bytes)
  | .objectId hex => .ok (.string hex)
  | .array items => (toValues items).map .array
  | .document [(name, .string text)] =>
    let name := Percent.restore name
    .ok ((untagged? name text).getD (.object [(name, .string text)]))
  | .document [(name, .document inner)] =>
    let name := Percent.restore name
    if name = Tag.object.name then (toEntries inner).map fun entries => .object (OrderedMap.ofList entries)
    else (toValue (.document inner)).map fun value => .object [(name, value)]
  | .document fields => (toEntries fields).map fun entries => .object (OrderedMap.ofList entries)
  | foreign => .error (unsupported foreign)
termination_by structural bson => bson

def toValues : List Bson → Outcome (List Value)
  | [] => .ok []
  | item :: items => do
    let first ← toValue item
    let rest ← toValues items
    return first :: rest
termination_by structural items => items

def toEntries : List (String × Bson) → Outcome (List (String × Value))
  | [] => .ok []
  | (name, bson) :: fields => do
    let first ← toValue bson
    let rest ← toEntries fields
    return (Percent.restore name, first) :: rest
termination_by structural fields => fields

end

end Bson

namespace Document

def ofFields (fields : Fields) : Outcome Document := Bson.ofFields fields

def toFields (document : Document) : Outcome Fields := (Bson.toEntries document).map OrderedMap.ofList

end Document

end ObjectStore
