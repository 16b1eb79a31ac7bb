import ObjectStore.Json
import ObjectStore.Json.Reader

/-!
# The wire form

The JSON documents by which values, queries and their parts cross a process boundary. The form is lossless: a value keeps its kind and every bit of a double. This module holds what all parts share, the reading and writing of lists, maps, optional members and named choices; a document that has not the expected form reads as nothing.
-/

namespace ObjectStore

namespace Wire

abbrev Reader (α : Type) := Json → Option α

variable {α β : Type}

def text : Reader String := Json.string?

def int : Reader Int
  | .integer n => some n
  | _ => none

def nat : Reader Nat := fun json => (int json).bind Int.toNat?

/-- A number of records. It crosses as a signed number of 64 bits. -/
def count : Reader Nat := fun json => (nat json).filter (· < twoTo 63)

def flag : Reader Bool
  | .boolean flag => some flag
  | _ => none

def member (name : String) (read : Reader α) : Reader α
  | .object fields => (OrderedMap.get? fields name).bind read
  | _ => none

/-- A member of an object that may be missing or null. -/
def optional (name : String) (read : Reader α) (json : Json) : Option (Option α) :=
  match json with
  | .object fields =>
    match OrderedMap.get? fields name with
    | none | some .null => some none
    | some value => (read value).map some
  | _ => none

def list (read : Reader α) : Reader (List α)
  | .array items => items.mapM read
  | _ => none

def pair (first : Reader α) (second : Reader β) : Reader (α × β)
  | .array [a, b] => do return (← first a, ← second b)
  | _ => none

def map (read : Reader α) (json : Json) : Option (OrderedMap α) := (list (pair text read) json).map OrderedMap.ofList

def ofNat (n : Nat) : Json := .integer n

def ofList (write : α → Json) (items : List α) : Json := .array (items.map write)

def ofTexts : List String → Json := ofList .string

def ofMap (write : α → Json) (map : OrderedMap α) : Json := .array (map.map fun (key, value) => .array [.string key, write value])

/-- An absent datum is null. -/
def ofOption (write : α → Json) : Option α → Json
  | some a => write a
  | none => .null

abbrev Names (α : Type) := List (String × α)

def Names.read (names : Names α) (json : Json) : Option α := (text json).bind (OrderedMap.get? names)

def Names.write [BEq α] (names : Names α) (choice : α) : Json :=
  ofOption (fun entry => .string entry.1) (names.find? fun entry => entry.2 == choice)

/-- A number as lower-case hexadecimal digits, filled with zeros to a width. -/
def hexText (n width : Nat) : String :=
  let digits := Nat.toDigits 16 n
  String.ofList (List.replicate (width - digits.length) '0' ++ digits)

def hexNumber? (digits : List Char) : Option Nat :=
  digits.foldlM (fun n digit => (Json.hexValue? digit).map (n * 16 + ·)) 0

def hexBytes? : List Char → Option (List UInt8)
  | [] => some []
  | high :: low :: rest => do return UInt8.ofNat (← hexNumber? [high, low]) :: (← hexBytes? rest)
  | [_] => none

def bytes : Reader (List UInt8) := fun json => (text json).bind fun digits => hexBytes? digits.toList

def ofBytes (bytes : List UInt8) : Json := .string (String.join (bytes.map fun byte => hexText byte.toNat 2))

end Wire

end ObjectStore
