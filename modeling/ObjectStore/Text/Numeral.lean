import ObjectStore.Number.Power

/-!
# Numerals

Decimal digits read from and written to lists of characters. Every reader accepts exactly the ASCII digits.
-/

namespace ObjectStore

namespace Numeral

def digit (c : Char) : Nat := c.toNat - '0'.toNat

/-- The number that a run of digits stands for, continuing one that was read before. -/
def accumulate (start : Nat) (digits : List Char) : Nat :=
  digits.foldl (fun total c => 10 * total + digit c) start

def natural? (text : List Char) : Option Nat :=
  if text.isEmpty || !text.all Char.isDigit then none else some (accumulate 0 text)

/-- The leading run of digits and what follows it. -/
def splitDigits (text : List Char) : List Char × List Char :=
  (text.takeWhile Char.isDigit, text.dropWhile Char.isDigit)

def integer? : List Char → Option Int
  | '-' :: rest => (natural? rest).map fun n => -(n : Int)
  | '+' :: rest => (natural? rest).map fun n => (n : Int)
  | text => (natural? text).map fun n => (n : Int)

def int64? (text : List Char) : Option Int64 :=
  (integer? text).bind ObjectStore.int64?

/-- A natural number that fits 64 bits. A minus sign is refused even before a zero. -/
def uint64? (text : List Char) : Option Nat :=
  let digits := match text with
    | '+' :: rest => rest
    | _ => text
  match natural? digits with
  | some n => if n < twoTo 64 then some n else none
  | none => none

def digits (n : Nat) : List Char := Nat.toDigits 10 n

/-- The digits of a number, with zeros in front up to a width. -/
def padded (width n : Nat) : String :=
  String.ofList (List.replicate (width - (digits n).length) '0' ++ digits n)

end Numeral

end ObjectStore
