import ObjectStore.Number.Double

/-!
# Decimals

A decimal is an integer of any length with a scale: `digits * 10 ^ (-scale)`. The scale belongs to the datum, so 1.5 and 1.50 are written differently, yet they are the same number and compare equal.
-/

namespace ObjectStore

/-- A decimal number, `digits * 10 ^ (-scale)`. -/
structure Decimal where
  digits : Int
  scale : Int
deriving DecidableEq, Inhabited

namespace Decimal

def ofInt (n : Int) : Decimal := ⟨n, 0⟩

/-- The digits of a decimal when its last place is `10 ^ (-scale)`, for a scale that loses none of them. -/
def digitsAt (d : Decimal) (scale : Int) : Int := d.digits * tenTo (scale - d.scale).toNat

/-- The exponent of a power of ten above the number, whatever its sign. Digits of binary length `b` are below `2 ^ b` and so below `10 ^ b`. -/
def reach (d : Decimal) : Int := Nat.log2 d.digits.natAbs + 1 - d.scale

/-- Whether the scales alone show that a number is greater than another one, both taken without their signs. -/
def outweighs (a b : Decimal) : Bool := a.digits != 0 && (b.digits == 0 || b.reach ≤ -a.scale)

/-- The order of the numbers. It is read off the digits at the larger scale, unless the numbers are so far apart that the greater one decides. -/
def compare (a b : Decimal) : Ordering :=
  if a.outweighs b then Ord.compare a.digits 0
  else if b.outweighs a then Ord.compare 0 b.digits
  else if a.digits = 0 then .eq
  else
    let scale := max a.scale b.scale
    Ord.compare (a.digitsAt scale) (b.digitsAt scale)

def same (a b : Decimal) : Bool := a.compare b == .eq

def width (d : Decimal) : Nat := (Nat.toDigits 10 d.digits.natAbs).length

/-- The sum, with the larger of both scales. -/
def add (a b : Decimal) : Decimal :=
  let scale := max a.scale b.scale
  ⟨a.digitsAt scale + b.digitsAt scale, scale⟩

/-- The product. A factor that equals one leaves the other unchanged; otherwise the scales add up. -/
def mul (a b : Decimal) : Decimal :=
  if a.same (ofInt 1) then b
  else if b.same (ofInt 1) then a
  else ⟨a.digits * b.digits, a.scale + b.scale⟩

/-- The exact decimal of a finite double. Its scale is the least that is not negative, but a subnormal keeps all the places of the smallest one. -/
def ofDouble? (x : Double) : Option Decimal :=
  match x.view with
  | .finite negative significand exponent =>
    if significand = 0 then some ⟨0, 0⟩
    else
      let places := (-exponent).toNat
      let twos := if significand < twoTo 52 then 0 else trailingTwos places significand
      let rest := places - twos
      some ⟨Double.signed negative (significand * twoTo exponent.toNat / twoTo twos * Nat.pow 5 rest), rest⟩
  | _ => none
where
  /-- How often two divides a number, up to a limit. -/
  trailingTwos : Nat → Nat → Nat
    | 0, _ => 0
    | limit + 1, n => if n % 2 = 0 then trailingTwos limit (n / 2) + 1 else 0

/-- The number of digits, guessed from their length in binary: 0.30102999566398120 is the decimal logarithm of two. -/
def widthGuess (d : Decimal) : Nat := (Nat.log2 d.digits.natAbs + 2) * 30102999566398120 / tenTo 17

/-- The decimal without the trailing digits that a double has no room for. They go nineteen at a time, and about twenty-five stay. -/
def shortened (d : Decimal) : Decimal :=
  let places : Nat := (d.widthGuess - 25) / 19 * 19
  ⟨Double.signed (d.digits < 0) (d.digits.natAbs / tenTo places), d.scale - places⟩

/-- A double close to the decimal. At scale zero it is the nearest one. At any other scale a long decimal is shortened first; the rest is rounded once if it has places behind the point, and otherwise its digits and the power of ten are rounded each and multiplied. A scale that needs more than 32 bits counts as an overflow, whatever its sign. -/
def toDouble (d : Decimal) : Double :=
  if d.digits = 0 || d.scale = 0 then Double.ofInt d.digits
  else
    let kept := d.shortened
    let negative : Bool := d.digits < 0
    if twoTo 31 ≤ kept.scale.natAbs then Double.infinity negative
    else if kept.scale ≤ 0 then Double.mul (Double.ofInt kept.digits) (Double.power (Double.ofInt 10) (-kept.scale).toNat)
    else Double.ofDecimal negative kept.digits.natAbs (-kept.scale)

def toInt64? (d : Decimal) : Option Int64 :=
  let whole : Option Int :=
    if d.digits = 0 then some 0
    else if d.scale ≤ 0 then
      if 19 < -d.scale then none else some (d.digits * tenTo (-d.scale).toNat)
    else if (d.width : Int) ≤ d.scale then none
    else if d.digits % tenTo d.scale.toNat = 0 then some (d.digits / tenTo d.scale.toNat)
    else none
  whole.bind int64?

/-- The one decimal of each number whose digits end in no zero; zero has scale zero. -/
def normalized (d : Decimal) : Decimal :=
  if d.digits = 0 then ⟨0, 0⟩ else go d.width d
where
  /-- There are no more trailing zeros than digits. -/
  go : Nat → Decimal → Decimal
    | 0, d => d
    | limit + 1, d => if d.digits % 10 = 0 then go limit ⟨d.digits / 10, d.scale - 1⟩ else d

end Decimal

end ObjectStore
