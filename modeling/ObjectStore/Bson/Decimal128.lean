import ObjectStore.Number.DecimalText

/-!
# Decimals of 128 bits

The decimal floating-point numbers of IEEE 754 with 34 digits. A number may have several representations that differ in their exponents. A decimal of any length is represented only if that loses none of its digits: surplus digits have to be zeros, and a large exponent may be lowered by zeros behind the digits as long as there is room for them.
-/

namespace ObjectStore

namespace Decimal128

/-- The most digits of a coefficient. -/
def precision : Nat := 34

def leastExponent : Int := -6176

def greatestExponent : Int := 6111

def inRange (coefficient : Nat) (exponent : Int) : Bool :=
  coefficient < tenTo precision && leastExponent ≤ exponent && exponent ≤ greatestExponent

end Decimal128

inductive Decimal128 where
  /-- The number `coefficient * 10 ^ exponent`, with a sign that a zero has too. -/
  | finite (negative : Bool) (coefficient : Nat) (exponent : Int)
      (valid : Decimal128.inRange coefficient exponent = true)
  | infinity (negative : Bool)
  | nan
deriving DecidableEq

namespace Decimal128

instance : Inhabited Decimal128 := ⟨nan⟩

def checked? (negative : Bool) (coefficient : Nat) (exponent : Int) : Option Decimal128 :=
  if valid : inRange coefficient exponent = true then some (finite negative coefficient exponent valid) else none

/-- The zero with the exponent nearest to the given one. -/
def zero (negative : Bool) (exponent : Int) : Option Decimal128 :=
  checked? negative 0 (max leastExponent (min exponent greatestExponent))

def width (n : Nat) : Nat := (Nat.toDigits 10 n).length

/-- Cuts digits off the end if all of them are zeros and others remain. -/
def cut? (coefficient surplus : Nat) : Option Nat :=
  if surplus < width coefficient ∧ coefficient % tenTo surplus = 0 then some (coefficient / tenTo surplus) else none

/-- Puts zeros behind the digits if there is room for so many. -/
def pad? (coefficient missing : Nat) : Option Nat :=
  if missing ≤ precision then some (coefficient * tenTo missing) else none

/-- The representation of `coefficient * 10 ^ exponent` with the exponent nearest to the given one, if there is any. -/
def ofParts? (negative : Bool) (coefficient : Nat) (exponent : Int) : Option Decimal128 :=
  if coefficient = 0 then zero negative exponent
  else do
    let surplus := max (width coefficient - precision) (leastExponent - exponent).toNat
    let shorter ← cut? coefficient surplus
    let missing := (exponent + surplus - greatestExponent).toNat
    let longer ← pad? shorter missing
    checked? negative longer (exponent + surplus - missing)

/-- The representation of a decimal, if there is any. A whole number that is written without an exponent gets the exponent zero. -/
def ofDecimal? (d : Decimal) : Option Decimal128 :=
  if d.digits = 0 then zero false 0
  else if 0 ≤ -d.scale ∧ -d.scale ≤ Decimal.trailingZeroLimit then
    ofParts? (d.digits < 0) (d.digits.natAbs * tenTo (-d.scale).toNat) 0
  else ofParts? (d.digits < 0) d.digits.natAbs (-d.scale)

def toDecimal? : Decimal128 → Option Decimal
  | finite negative coefficient exponent _ => some ⟨if negative then -(coefficient : Int) else coefficient, -exponent⟩
  | infinity _ | nan => none

/-- Digits with a point before the last `places` of them. -/
def pointed (digits : List Char) (places : Nat) : String :=
  if places = 0 then String.ofList digits
  else
    let full := List.replicate (places + 1 - digits.length) '0' ++ digits
    String.ofList (full.take (full.length - places)) ++ "." ++ String.ofList (full.drop (full.length - places))

/-- The exponent of the first digit, from which on numbers are written without an exponent. -/
def plainFrom : Int := -6

/-- The text of a finite magnitude: plain for a fraction that is not too small, with an exponent otherwise. -/
def magnitudeText (coefficient : Nat) (exponent : Int) : String :=
  let digits := Numeral.digits coefficient
  let leading := exponent + digits.length - 1
  if exponent ≤ 0 ∧ plainFrom ≤ leading then pointed digits (-exponent).toNat
  else pointed digits (digits.length - 1) ++ "E" ++ (if 0 < leading then "+" else "") ++ toString leading

def toText : Decimal128 → String
  | finite negative coefficient exponent _ => (if negative then "-" else "") ++ magnitudeText coefficient exponent
  | infinity negative => (if negative then "-" else "") ++ "Infinity"
  | nan => "NaN"

def ofText? (text : String) : Option Decimal128 :=
  if text = "NaN" then some nan
  else if text = "Infinity" then some (infinity false)
  else if text = "-Infinity" then some (infinity true)
  else (Decimal.ofText? text.toList).bind fun d => ofParts? (text.startsWith "-") d.digits.natAbs (-d.scale)

end Decimal128

end ObjectStore
