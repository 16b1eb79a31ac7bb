import ObjectStore.OrderedMap
import ObjectStore.Number.Double
import ObjectStore.Bson.Decimal128

/-!
# BSON

The data of a document database. It has more kinds than the values of this library: integers of two widths, identifiers of its own, and a few kinds that only the database itself makes use of.
-/

namespace ObjectStore

/-- A datum of a document database. -/
inductive Bson where
  | null
  /-- An absent datum of old documents. -/
  | undefined
  | boolean (flag : Bool)
  | string (text : String)
  | int32 (n : Int32)
  | int64 (n : Int64)
  | double (x : Double)
  | decimal128 (d : Decimal128)
  /-- An instant, in milliseconds since 1970. -/
  | instant (millis : Int)
  | binary (subtype : UInt8) (bytes : List UInt8)
  /-- An identifier that the database made, as hexadecimal digits. -/
  | objectId (hex : String)
  | array (items : List Bson)
  | document (fields : List (String × Bson))
  | regularExpression (pattern options : String)
  /-- A position in the log of the database. -/
  | timestamp (time increment : UInt32)
  | minKey
  | maxKey
  | symbol (name : String)
  | code (text : String)
  | codeWithScope (text : String) (scope : List (String × Bson))
deriving Inhabited

abbrev Document := OrderedMap Bson

namespace Bson

/-- The name of a kind that no value corresponds to. -/
def foreignKind? : Bson → Option String
  | regularExpression _ _ => some "RegularExpression"
  | timestamp _ _ => some "Timestamp"
  | minKey => some "MinKey"
  | maxKey => some "MaxKey"
  | symbol _ => some "Symbol"
  | code _ => some "JavaScriptCode"
  | codeWithScope _ _ => some "JavaScriptCodeWithScope"
  | _ => none

end Bson

end ObjectStore
