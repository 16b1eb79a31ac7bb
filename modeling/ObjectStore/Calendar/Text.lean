import ObjectStore.Calendar.Instant
import ObjectStore.Text.Numeral

/-!
# Text of dates, times and instants

Writers give every field its full width. The readers of dates and times are lenient: they take fewer digits, blanks before a number and a signed year. The reader of instants follows RFC 3339, where every field has its full width and the year has four digits.
-/

namespace ObjectStore

namespace Calendar

/-! ### Writing -/

/-- Four digits, with a sign and more digits if needed for a year outside 0 to 9999. -/
def yearText (year : Int) : String :=
  if 0 ≤ year ∧ year ≤ 9999 then Numeral.padded 4 year.toNat
  else (if year < 0 then "-" else "+") ++ Numeral.padded 4 year.natAbs

def dateText (year : Int) (month day : Nat) : String :=
  yearText year ++ "-" ++ Numeral.padded 2 month ++ "-" ++ Numeral.padded 2 day

inductive Fraction where
  /-- Nine digits. -/
  | full
  /-- As few as are exact, of none, three, six and nine. -/
  | shortest

def Fraction.text : Fraction → Nat → String
  | .full, nanos => "." ++ Numeral.padded 9 nanos
  | .shortest, nanos =>
    if nanos = 0 then ""
    else if nanos % 1000000 = 0 then "." ++ Numeral.padded 3 (nanos / 1000000)
    else if nanos % 1000 = 0 then "." ++ Numeral.padded 6 (nanos / 1000)
    else "." ++ Numeral.padded 9 nanos

/-- The text of a second of the day. A leap second is written as second 60. -/
def clockText (fraction : Fraction) (secondOfDay nanos : Nat) : String :=
  let hour := secondOfDay / 3600
  let minute := secondOfDay / 60 % 60
  let second := secondOfDay % 60
  let (second, nanos) := if nanosPerSecond ≤ nanos then (second + 1, nanos - nanosPerSecond) else (second, nanos)
  Numeral.padded 2 hour ++ ":" ++ Numeral.padded 2 minute ++ ":" ++ Numeral.padded 2 second ++ fraction.text nanos

/-! ### Reading -/

abbrev Reader (α : Type) := List Char → Option (α × List Char)

/-- A run of at least `least` and at most `most` digits. -/
def number (least most : Nat) : Reader Nat := fun text =>
  let digits := (text.take most).takeWhile Char.isDigit
  if digits.length < least then none
  else some (Numeral.accumulate 0 digits, text.drop digits.length)

def anyNumber : Reader Nat := fun text =>
  let (digits, rest) := Numeral.splitDigits text
  if digits.isEmpty then none else some (Numeral.accumulate 0 digits, rest)

def symbol (c : Char) : Reader Unit
  | [] => none
  | d :: rest => if d = c then some ((), rest) else none

/-- The characters that Unicode calls white space. -/
def isBlank (c : Char) : Bool :=
  let n := c.toNat
  (0x9 ≤ n && n ≤ 0xd) || n == 0x20 || n == 0x85 || n == 0xa0 || n == 0x1680 ||
    (0x2000 ≤ n && n ≤ 0x200a) || n == 0x2028 || n == 0x2029 || n == 0x202f || n == 0x205f || n == 0x3000

def blankNumber (most : Nat) : Reader Nat := fun text => number 1 most (text.dropWhile isBlank)

/-- Blanks and then a year. Only a signed year may have more than four digits. -/
def blankYear : Reader Int := fun text =>
  match text.dropWhile isBlank with
  | '-' :: rest => (anyNumber rest).map fun (n, rest) => (-(n : Int), rest)
  | '+' :: rest => (anyNumber rest).map fun (n, rest) => ((n : Int), rest)
  | text => (number 1 4 text).map fun (n, rest) => ((n : Int), rest)

/-- Digits of a fraction of a second. Digits beyond nanoseconds are dropped. -/
def fractionDigits : Reader Nat := fun text =>
  let (digits, rest) := Numeral.splitDigits text
  if digits.isEmpty then none
  else
    let kept := digits.take 9
    some (Numeral.accumulate 0 kept * tenTo (9 - kept.length), rest)

def optionalFraction : Reader Nat
  | '.' :: rest => fractionDigits rest
  | text => some (0, text)

/-- An optional point with exactly nine digits behind it. -/
def optionalNanos : Reader Nat
  | '.' :: rest => number 9 9 rest
  | text => some (0, text)

/-- A second as it is written, where 60 prolongs second 59. -/
def leapSecond (second nanos : Nat) : Nat × Nat :=
  if second = 60 then (59, nanosPerSecond + nanos) else (second, nanos)

/-- The offset from UTC in seconds: a letter for none, or a sign, hours and minutes of less than a day. -/
def utcOffset : Reader Int
  | 'Z' :: rest | 'z' :: rest => some (0, rest)
  | sign :: rest =>
    let negative := sign = '-' || sign = '\u2212'
    if negative || sign = '+' then do
      let (hours, rest) ← number 2 2 rest
      let (_, rest) ← symbol ':' rest
      let (minutes, rest) ← number 2 2 rest
      let seconds : Int := hours * 3600 + minutes * 60
      if minutes < 60 ∧ hours < 24 then some (if negative then -seconds else seconds, rest) else none
    else none
  | [] => none

end Calendar

namespace Date

def toText (d : Date) : String := Calendar.dateText d.year d.month d.day

def ofText? (text : List Char) : Option Date := do
  let (year, rest) ← Calendar.blankYear text
  let (_, rest) ← Calendar.symbol '-' rest
  let (month, rest) ← Calendar.blankNumber 2 rest
  let (_, rest) ← Calendar.symbol '-' rest
  let (day, rest) ← Calendar.blankNumber 2 rest
  if rest.isEmpty then ofParts? year month day else none

end Date

namespace TimeOfDay

def toText (fraction : Calendar.Fraction) (t : TimeOfDay) : String :=
  Calendar.clockText fraction t.secondOfDay t.nanos

def ofTextWith? (fraction : Calendar.Reader Nat) (text : List Char) : Option TimeOfDay := do
  let (hour, rest) ← Calendar.blankNumber 2 text
  let (_, rest) ← Calendar.symbol ':' rest
  let (minute, rest) ← Calendar.blankNumber 2 rest
  let (_, rest) ← Calendar.symbol ':' rest
  let (second, rest) ← Calendar.blankNumber 2 rest
  let (nanos, rest) ← fraction rest
  let (second, nanos) := Calendar.leapSecond second nanos
  if rest.isEmpty then ofParts? hour minute second nanos else none

def ofText? (text : List Char) : Option TimeOfDay := ofTextWith? Calendar.optionalFraction text

/-- Reads a time with an optional fraction of exactly nine digits. -/
def ofFullText? (text : List Char) : Option TimeOfDay := ofTextWith? Calendar.optionalNanos text

end TimeOfDay

namespace Instant

def toText (fraction : Calendar.Fraction) (t : Instant) : String :=
  let (year, month, day) := t.civil
  Calendar.dateText year month day ++ "T" ++ Calendar.clockText fraction t.secondOfDay t.nanos ++ "Z"

/-- Reads RFC 3339, with either case of its letters, a blank for the `T` and any offset. -/
def ofText? (text : List Char) : Option Instant := do
  let (year, rest) ← Calendar.number 4 4 text
  let (_, rest) ← Calendar.symbol '-' rest
  let (month, rest) ← Calendar.number 2 2 rest
  let (_, rest) ← Calendar.symbol '-' rest
  let (day, rest) ← Calendar.number 2 2 rest
  let rest ← match rest with
    | 'T' :: rest | 't' :: rest | ' ' :: rest => some rest
    | _ => none
  let (hour, rest) ← Calendar.number 2 2 rest
  let (_, rest) ← Calendar.symbol ':' rest
  let (minute, rest) ← Calendar.number 2 2 rest
  let (_, rest) ← Calendar.symbol ':' rest
  let (second, rest) ← Calendar.number 2 2 rest
  let (nanos, rest) ← Calendar.optionalFraction rest
  let (offset, rest) ← Calendar.utcOffset rest
  let (second, nanos) := Calendar.leapSecond second nanos
  let date ← Date.ofParts? year month day
  let time ← TimeOfDay.ofParts? hour minute second nanos
  if rest.isEmpty then
    ofParts? (Calendar.dayNumber date.year date.month date.day * Calendar.secondsPerDay + time.secondOfDay - offset)
      time.nanos
  else none

end Instant

end ObjectStore
