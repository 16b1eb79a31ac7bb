import ObjectStore.Bson
import ObjectStore.Wire.Value

/-!
# BSON on the wire

A datum is an array that begins with the name of its kind.
-/

namespace ObjectStore

namespace Wire

def int32 : Reader Int32 := fun json => (int json).map Int32.ofInt

def subtype : Reader UInt8 := fun json => (nat json).map UInt8.ofNat

def word32 : Reader UInt32 := fun json => (nat json).map UInt32.ofNat

/-- A datum of a named kind that holds no other data. -/
def simpleBson (kind : String) (parts : List Json) : Option Bson :=
  match kind, parts with
  | "null", [] => some .null
  | "undefined", [] => some .undefined
  | "bool", [f] => (flag f).map .boolean
  | "string", [t] => (text t).map .string
  | "int32", [n] => (int32 n).map .int32
  | "int64", [n] => (int n).map fun n => .int64 (Int64.ofInt n)
  | "double", [x] => (double x).map .double
  | "decimal128", [t] => (text t).bind fun t => (Decimal128.ofText? t).map .decimal128
  | "datetime", [n] => (int n).map .instant
  | "binary", [s, b] => do return .binary (← subtype s) (← bytes b)
  | "objectid", [t] => (text t).map .objectId
  | "regex", [p, o] => do return .regularExpression (← text p) (← text o)
  | "timestamp", [t, i] => do return .timestamp (← word32 t) (← word32 i)
  | "minkey", [] => some .minKey
  | "maxkey", [] => some .maxKey
  | "symbol", [t] => (text t).map .symbol
  | "javascript", [t] => (text t).map .code
  | _, _ => none

mutual

def bson : Json → Option Bson
  | .array [.string kind, .array parts] =>
    if kind = "array" then (bsons parts).map .array
    else if kind = "document" then (fieldsOf parts).map fun fields => .document (OrderedMap.ofList fields)
    else none
  | .array [.string kind, .string code, .array scope] =>
    if kind = "javascriptScope" then (fieldsOf scope).map fun fields => .codeWithScope code (OrderedMap.ofList fields)
    else none
  | .array (.string kind :: parts) => simpleBson kind parts
  | _ => none
termination_by structural json => json

def bsons : List Json → Option (List Bson)
  | [] => some []
  | item :: items => do return (← bson item) :: (← bsons items)
termination_by structural items => items

def fieldsOf : List Json → Option (List (String × Bson))
  | [] => some []
  | .array [.string name, item] :: rest => do return (name, ← bson item) :: (← fieldsOf rest)
  | _ => none
termination_by structural fields => fields

end

def document : Reader Document := map bson

def kindOf (name : String) (parts : List Json) : Json := .array (.string name :: parts)

mutual

def ofBson : Bson → Json
  | .null => kindOf "null" []
  | .undefined => kindOf "undefined" []
  | .boolean flag => kindOf "bool" [.boolean flag]
  | .string text => kindOf "string" [.string text]
  | .int32 n => kindOf "int32" [.integer n.toInt]
  | .int64 n => kindOf "int64" [.integer n.toInt]
  | .double x => kindOf "double" [ofDouble x]
  | .decimal128 d => kindOf "decimal128" [.string d.toText]
  | .instant millis => kindOf "datetime" [.integer millis]
  | .binary subtype bytes => kindOf "binary" [.integer subtype.toNat, ofBytes bytes]
  | .objectId hex => kindOf "objectid" [.string hex]
  | .array items => kindOf "array" [.array (ofBsons items)]
  | .document fields => kindOf "document" [.array (ofFieldsOf fields)]
  | .regularExpression pattern options => kindOf "regex" [.string pattern, .string options]
  | .timestamp time increment => kindOf "timestamp" [.integer time.toNat, .integer increment.toNat]
  | .minKey => kindOf "minkey" []
  | .maxKey => kindOf "maxkey" []
  | .symbol name => kindOf "symbol" [.string name]
  | .code text => kindOf "javascript" [.string text]
  | .codeWithScope text scope => kindOf "javascriptScope" [.string text, .array (ofFieldsOf scope)]
termination_by structural bson => bson

def ofBsons : List Bson → List Json
  | [] => []
  | item :: items => ofBson item :: ofBsons items
termination_by structural items => items

def ofFieldsOf : List (String × Bson) → List Json
  | [] => []
  | (name, item) :: fields => .array [.string name, ofBson item] :: ofFieldsOf fields
termination_by structural fields => fields

end

def ofDocument : Document → Json := ofMap ofBson

end Wire

end ObjectStore
