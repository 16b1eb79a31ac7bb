import ObjectStore.Calendar.Instant
import ObjectStore.Number.Power

/-!
# Clocks and identifiers

What a backend takes from outside: readings of a wall clock, which become write stamps that always increase, and identifiers for new records.
-/

namespace ObjectStore

/-- The unit of a write stamp: the finest that a backend keeps exactly. -/
inductive WriteClock where
  | micros
  | millis
deriving DecidableEq

instance : Inhabited WriteClock := ⟨.micros⟩

namespace WriteClock

def least : Int := -(twoTo 63 : Int)

/-- Stamps are counted in 64 bits. -/
def greatest : Int := (twoTo 63 : Int) - 1

/-- The next stamp: the wall reading, or one unit after the last stamp if that is later. -/
def advance (last wall : Int) : Int := max wall (min (last + 1) greatest)

def instant (clock : WriteClock) (stamp : Int) : Instant :=
  match clock with
  | micros => (Instant.ofMicros? stamp).getD Instant.last
  | millis => (Instant.ofMillis? stamp).getD Instant.last

end WriteClock

/-- Where stamps and identifiers come from, and how much of both has been used. -/
structure Sources where
  /-- The identifiers in the order in which they are handed out. -/
  ids : Nat → String
  draws : Nat := 0
  /-- The wall clock's successive readings, in the unit of the write clock. -/
  wall : Nat → Int
  reads : Nat := 0
  last : Int := WriteClock.least

namespace Sources

def draw (sources : Sources) : String × Sources :=
  (sources.ids sources.draws, { sources with draws := sources.draws + 1 })

/-- Takes a reading and makes the next stamp of it. -/
def now (clock : WriteClock) (sources : Sources) : Instant × Sources :=
  let stamp := WriteClock.advance sources.last (sources.wall sources.reads)
  (clock.instant stamp, { sources with reads := sources.reads + 1, last := stamp })

end Sources

namespace Identifier

def length : Nat := 10

def alphabet : List Char := "0123456789ABCDEFGHIJKLMNOPQRSTUVWXYZabcdefghijklmnopqrstuvwxyz".toList

/-- Bytes from here on are dropped, so that every symbol stands for equally many bytes: 248 is four times 62. -/
def byteLimit : Nat := 248

def symbols (bytes : List UInt8) : List Char :=
  (bytes.filter fun byte => byte.toNat < byteLimit).map fun byte => alphabet.getD (byte.toNat % 62) '0'

/-- The identifier drawn from a sequence of random UUIDs: its first ten symbols, if it has as many. -/
def ofUuids? (uuids : List (List UInt8)) : Option String :=
  let id := (symbols uuids.flatten).take length
  if id.length = length then some (String.ofList id) else none

end Identifier

end ObjectStore
