import ObjectStore.ExtendedJson

/-!
# Reading values as instants

A value that is no timestamp is read as an instant by one of three strategies, and each strategy writes an instant in a form that it reads.
-/

namespace ObjectStore

/-- How a value stands for an instant. -/
inductive DateStrategy where
  /-- A text of RFC 3339. -/
  | iso8601
  /-- Milliseconds since 1970. -/
  | millis
  /-- Seconds since 1970, with a fraction if need be. -/
  | seconds
deriving DecidableEq, Inhabited

namespace DateStrategy

def name : DateStrategy → String
  | iso8601 => "Iso8601"
  | millis => "Millis"
  | seconds => "Seconds"

/-- The instant a number of seconds after 1970. The fraction is rounded to nanoseconds, short of the next second. -/
def ofSeconds? (x : Double) : Option Instant := do
  let whole ← x.floor?
  let fraction := x.sub (Double.ofInt whole)
  let nanos ← (fraction.mul (Double.ofInt 1000000000)).round?
  Instant.ofParts? whole (min nanos.toNat 999999999)

def instant? : DateStrategy → Value → Option Instant
  | iso8601, .string text => Instant.ofText? text.toList
  | millis, .integer n => Instant.ofMillis? n.toInt
  | millis, .string text => (Numeral.int64? text.toList).bind fun n => Instant.ofMillis? n.toInt
  | seconds, .integer n => Instant.ofParts? n.toInt 0
  | seconds, .number x => ofSeconds? x
  | _, _ => none

def decode (strategy : DateStrategy) (value : Value) : Outcome Instant :=
  match strategy.instant? value with
  | some t => .ok t
  | none => .error (.invalidDateFormat (ExtendedJson.toText value ++ " as " ++ strategy.name))

def encode : DateStrategy → Instant → Value
  | iso8601, t => .string (t.toText .shortest)
  | millis, t => .integer (Int64.ofInt t.millis)
  | seconds, t =>
    .number ((Double.ofInt t.seconds).add ((Double.ofInt t.nanos).div (Double.ofInt 1000000000)))

end DateStrategy

/-- A timestamp as it is, and any other value by a strategy. -/
def Value.toInstant (value : Value) (strategy : DateStrategy) : Outcome Instant :=
  match value with
  | .timestamp t => .ok t
  | value => strategy.decode value

end ObjectStore
