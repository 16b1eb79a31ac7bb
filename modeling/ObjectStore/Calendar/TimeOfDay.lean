/-!
# Times of day

A time of day with nanoseconds. A leap second is the last second of a minute with a further second in its nanoseconds.
-/

namespace ObjectStore

namespace Calendar

def nanosPerSecond : Nat := 1000000000

/-- Whether nanoseconds may stand beside a second of a minute: a full second or more only in a leap second. -/
def isNanos (second nanos : Nat) : Bool :=
  nanos < nanosPerSecond || (second == 59 && nanos < 2 * nanosPerSecond)

def isTimeOfDay (hour minute second nanos : Nat) : Bool :=
  hour < 24 && minute < 60 && second < 60 && isNanos second nanos

end Calendar

structure TimeOfDay where
  hour : Nat
  minute : Nat
  second : Nat
  nanos : Nat
  valid : Calendar.isTimeOfDay hour minute second nanos = true := by decide
deriving DecidableEq

namespace TimeOfDay

instance : Inhabited TimeOfDay := ⟨{ hour := 0, minute := 0, second := 0, nanos := 0 }⟩

def ofParts? (hour minute second nanos : Nat) : Option TimeOfDay :=
  if valid : Calendar.isTimeOfDay hour minute second nanos = true then
    some ⟨hour, minute, second, nanos, valid⟩
  else none

def secondOfDay (t : TimeOfDay) : Nat := 3600 * t.hour + 60 * t.minute + t.second

/-- Chronological order; a leap second comes after the second that it prolongs. -/
def compare (a b : TimeOfDay) : Ordering :=
  (Ord.compare a.secondOfDay b.secondOfDay).then (Ord.compare a.nanos b.nanos)

end TimeOfDay

end ObjectStore
