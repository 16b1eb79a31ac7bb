import ObjectStore.ExtendedJson
import ObjectStore.Relational.Type

/-!
# Statements

A statement is written as pieces: fixed words, quoted names and bound values. Rendering numbers the values from left to right and gives each placeholder the cast of its type, so that the server never guesses a type. Null is written out and not bound.
-/

namespace ObjectStore

namespace Relational

/-- A name between quotes; a quote inside it is doubled. -/
def quoteName (name : String) : String :=
  "\"" ++ String.join (name.toList.map fun c => if c = '"' then "\"\"" else String.singleton c) ++ "\""

inductive Piece where
  | sql (text : String)
  | name (name : String)
  | value (value : Value)
deriving Inhabited

/-- A statement, or a part of one, in pieces. -/
abbrev Pieces := List Piece

namespace Pieces

def join (separator : String) : List Pieces → Pieces
  | [] => []
  | [part] => part
  | part :: parts => part ++ .sql separator :: join separator parts

def parameters : Pieces → List Value
  | [] => []
  | .value value :: rest => if (SqlType.ofValue? value).isSome then value :: parameters rest else parameters rest
  | _ :: rest => parameters rest

def placeholder (number : Nat) (type : SqlType) : String := "$" ++ toString number ++ "::" ++ type.cast

/-- The text of every piece, when some values are already bound before it. -/
def texts : Nat → Pieces → List String
  | _, [] => []
  | bound, .sql text :: rest => text :: texts bound rest
  | bound, .name name :: rest => quoteName name :: texts bound rest
  | bound, .value value :: rest =>
    match SqlType.ofValue? value with
    | some type => placeholder (bound + 1) type :: texts (bound + 1) rest
    | none => "NULL" :: texts bound rest

end Pieces

/-- A text with placeholders and the values bound to them. -/
structure Statement where
  text : String
  parameters : List Value
deriving Inhabited

def Statement.ofPieces (pieces : Pieces) : Statement where
  text := String.join (pieces.texts 0)
  parameters := pieces.parameters

/-- A bound value as it travels to the server. -/
inductive Parameter where
  | scalar (value : Value)
  /-- A decimal, as its text. -/
  | decimal (text : String)
  | json (json : Json)
deriving Inhabited

namespace Parameter

/-- The server counts seconds from the start of 2000. -/
def epochSecond : Int := 946684800

/-- An instant in whole microseconds from the server's epoch; a finer part is cut toward the epoch. -/
def cutInstant (t : Instant) : Instant :=
  let micros := Int.tdiv ((t.seconds - epochSecond) * 1000000000 + t.nanos) 1000
  (Instant.ofMicros? (micros + epochSecond * 1000000)).getD t

/-- A time of day in whole microseconds; a leap second runs into the next minute. -/
def cutTime (t : TimeOfDay) : TimeOfDay :=
  let micros := (t.secondOfDay * 1000000000 + t.nanos) / 1000 % 86400000000
  let second := micros / 1000000
  (TimeOfDay.ofParts? (second / 3600) (second / 60 % 60) (second % 60) (micros % 1000000 * 1000)).getD t

/-- A value in the precision that the server keeps. -/
def cut : Value → Value
  | .timestamp t => .timestamp (cutInstant t)
  | .time t => .time (cutTime t)
  | value => value

def ofValue : Value → Parameter
  | .decimal d => decimal d.toText
  | .array items => json (ExtendedJson.encode (.array items))
  | .object fields => json (ExtendedJson.encode (.object fields))
  | value => scalar (cut value)

end Parameter

def Statement.bindings (statement : Statement) : List Parameter := statement.parameters.map Parameter.ofValue

end Relational

end ObjectStore
