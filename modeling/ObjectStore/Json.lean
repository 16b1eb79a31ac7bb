import ObjectStore.OrderedMap
import ObjectStore.Number.Double

/-!
# JSON documents

A JSON document as a tree. A number written without point and exponent is an integer, and every other number a double.
-/

namespace ObjectStore

/-- A JSON document. The names of an object are distinct and in the order of the text. -/
inductive Json where
  | null
  | boolean (flag : Bool)
  | integer (n : Int)
  /-- A finite double. -/
  | float (x : Double)
  | string (text : String)
  | array (items : List Json)
  | object (fields : List (String × Json))
deriving Inhabited

namespace Json

def string? : Json → Option String
  | string text => some text
  | _ => none

end Json

end ObjectStore
