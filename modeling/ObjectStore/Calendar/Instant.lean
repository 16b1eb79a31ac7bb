import ObjectStore.Calendar.Date
import ObjectStore.Calendar.TimeOfDay

/-!
# Instants

An instant of UTC, as whole seconds since 1970 and nanoseconds. A leap second keeps the seconds of the last ordinary second of its minute and counts on in the nanoseconds.
-/

namespace ObjectStore

namespace Calendar

def secondsPerDay : Int := 86400

/-- The first second of the first year. -/
def firstSecond : Int := -8334601228800

/-- The last second of the last year. -/
def lastSecond : Int := 8210266876799

def isInstant (seconds : Int) (nanos : Nat) : Bool :=
  firstSecond ≤ seconds && seconds ≤ lastSecond && isNanos (seconds % 60).toNat nanos

end Calendar

structure Instant where
  seconds : Int
  nanos : Nat
  valid : Calendar.isInstant seconds nanos = true := by decide
deriving DecidableEq

namespace Instant

instance : Inhabited Instant := ⟨{ seconds := 0, nanos := 0 }⟩

def ofParts? (seconds : Int) (nanos : Nat) : Option Instant :=
  if valid : Calendar.isInstant seconds nanos = true then some ⟨seconds, nanos, valid⟩ else none

def last : Instant := { seconds := Calendar.lastSecond, nanos := 999999999 }

def compare (a b : Instant) : Ordering :=
  (Ord.compare a.seconds b.seconds).then (Ord.compare a.nanos b.nanos)

/-- Whole milliseconds since 1970, rounded down. -/
def millis (t : Instant) : Int := t.seconds * 1000 + (t.nanos / 1000000 : Nat)

def micros (t : Instant) : Int := t.seconds * 1000000 + (t.nanos / 1000 : Nat)

def ofMillis? (millis : Int) : Option Instant :=
  ofParts? (millis / 1000) ((millis % 1000).toNat * 1000000)

def ofMicros? (micros : Int) : Option Instant :=
  ofParts? (micros / 1000000) ((micros % 1000000).toNat * 1000)

def inLeapSecond (t : Instant) : Bool := Calendar.nanosPerSecond ≤ t.nanos

def civil (t : Instant) : Int × Nat × Nat := Calendar.civilOfDayNumber (t.seconds / Calendar.secondsPerDay)

def secondOfDay (t : Instant) : Nat := (t.seconds % Calendar.secondsPerDay).toNat

end Instant

end ObjectStore
