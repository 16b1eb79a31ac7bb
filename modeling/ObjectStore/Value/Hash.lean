import ObjectStore.Value
import ObjectStore.Number.DecimalText

/-!
# Hashing values

What a value feeds to a hasher. The fields of an object are digested one by one and their digests summed, so that the order of fields leaves no trace; a decimal feeds the text of its normal form, so that equal decimals feed alike.
-/

namespace ObjectStore

namespace Value

/-- A piece of data fed to a hasher. -/
inductive Feed where
  | kind (kind : Kind)
  | flag (flag : Bool)
  | text (text : String)
  | int (n : Int)
  | bits (bits : UInt64)
  | bytes (bytes : List UInt8)
  | length (n : Nat)
deriving DecidableEq, Hashable

/-- A hasher, as the digest that it gives a sequence of data. -/
abbrev Digest := List Feed → UInt64

/-- What a value that is neither array nor object feeds after its kind. -/
def scalarFeed : Value → List Feed
  | boolean flag => [.flag flag]
  | string text => [.text text]
  | integer n => [.int n.toInt]
  | number x => [.bits x.canonicalBits]
  | decimal d => [.text d.normalized.toText]
  | timestamp t => [.int t.seconds, .int t.nanos]
  | date d => [.int d.year, .int d.month, .int d.day]
  | time t => [.int t.secondOfDay, .int t.nanos]
  | binary bytes => [.bytes bytes]
  | _ => []

mutual

def feed (digest : Digest) : Value → List Feed
  | array items => .kind .array :: .length items.length :: itemsFeed digest items
  | object fields => [.kind .object, .length fields.length, .bits (fieldsDigest digest fields)]
  | scalar => .kind scalar.kind :: scalarFeed scalar
termination_by structural value => value

def itemsFeed (digest : Digest) : List Value → List Feed
  | [] => []
  | item :: items => feed digest item ++ itemsFeed digest items
termination_by structural items => items

/-- The sum of the digests of the fields. -/
def fieldsDigest (digest : Digest) : List (String × Value) → UInt64
  | [] => 0
  | (key, value) :: fields => digest (.text key :: feed digest value) + fieldsDigest digest fields
termination_by structural fields => fields

end

def hashWith (digest : Digest) (value : Value) : UInt64 := digest (feed digest value)

instance : Hashable Value := ⟨hashWith hash⟩

end Value

end ObjectStore
