import ObjectStore.Number.Double

/-!
# Decimal text of doubles

The text of a finite double has the fewest digits that read back as the same double, and of those the nearest to it. How the digits are laid out is the decision of a format.
-/

namespace ObjectStore

namespace Double

/-- A decimal expansion that ends: `digits * 10 ^ exponent`. -/
structure Digits where
  digits : Nat
  exponent : Int
deriving DecidableEq, Repr

/-- The decimal exponent of the leading digit of `num / den`. -/
def leadingExponent (num den : Nat) : Int :=
  if den ≤ num then ((Nat.toDigits 10 (num / den)).length : Int) - 1
  else
    let places := (Nat.toDigits 10 (den / num)).length
    if den ≤ num * tenTo (places - 1) then -((places : Int) - 1) else -(places : Int)

/-- The reals that round to a double, in quarter units of its last place. The gap below a power of two is half as wide, and the ends belong to the interval when the significand is even. -/
structure Interval where
  low : Nat
  value : Nat
  high : Nat
  closed : Bool
  exponent : Int

def interval (significand : Nat) (exponent : Int) : Interval where
  low := if significand = twoTo 52 ∧ -1074 < exponent then 4 * significand - 1 else 4 * significand - 2
  value := 4 * significand
  high := 4 * significand + 2
  closed := significand % 2 = 0
  exponent := exponent - 2

/-- The better of the two neighbours of a double on the grid of multiples of `10 ^ place`, if one of them reads back. -/
def Interval.onGrid? (i : Interval) (place : Int) : Option Digits :=
  let scale := twoTo i.exponent.toNat * tenTo (-place).toNat
  let step := tenTo place.toNat * twoTo (-i.exponent).toNat
  let value := i.value * scale
  let below := value / step
  let above := below + 1
  let lowFits := if i.closed then i.low * scale ≤ below * step else i.low * scale < below * step
  let highFits := if i.closed then above * step ≤ i.high * scale else above * step < i.high * scale
  let down := value - below * step
  let up := above * step - value
  if lowFits && highFits then
    if down < up || (down == up && below % 2 == 0) then some ⟨below, place⟩ else some ⟨above, place⟩
  else if lowFits then some ⟨below, place⟩
  else if highFits then some ⟨above, place⟩
  else none

/-- Moves trailing zeros of the digits into the exponent. -/
def Digits.strip (d : Digits) : Digits :=
  go (Nat.toDigits 10 d.digits).length d
where
  /-- At most as many zeros as there are digits. -/
  go : Nat → Digits → Digits
    | 0, d => d
    | fuel + 1, d => if d.digits ≠ 0 ∧ d.digits % 10 = 0 then go fuel ⟨d.digits / 10, d.exponent + 1⟩ else d

/-- The fewest digits that read back as `significand * 2 ^ exponent`; seventeen always do. -/
def shortest (significand : Nat) (exponent : Int) : Digits :=
  let i := interval significand exponent
  let leading := leadingExponent (significand * twoTo exponent.toNat) (twoTo (-exponent).toNat)
  ((List.range 17).findSome? fun (n : Nat) => (i.onGrid? (leading - (n : Int))).map Digits.strip).getD ⟨0, 0⟩

structure Format where
  /-- The least decimal exponent of a leading digit that is written without an exponent. -/
  plainFrom : Int
  /-- The greatest such exponent. -/
  plainTo : Int
  /-- Whether a positive exponent carries a plus sign. -/
  plusSign : Bool
  nan : String
  infinity : String

def zeros (count : Nat) : String := String.ofList (List.replicate count '0')

/-- Lays out nonzero digits. A whole number keeps one zero behind its point. -/
def Format.layout (format : Format) (d : Digits) : String :=
  let digits := Nat.toDigits 10 d.digits
  let leading : Int := digits.length + d.exponent - 1
  if leading < format.plainFrom ∨ format.plainTo < leading then
    let mantissa := String.ofList (digits.take 1) ++
      (if digits.length = 1 then "" else "." ++ String.ofList (digits.drop 1))
    let sign := if leading < 0 then "-" else if format.plusSign then "+" else ""
    mantissa ++ "e" ++ sign ++ toString leading.natAbs
  else if 0 ≤ d.exponent then String.ofList digits ++ zeros d.exponent.toNat ++ ".0"
  else if 0 ≤ leading then
    String.ofList (digits.take (leading.toNat + 1)) ++ "." ++ String.ofList (digits.drop (leading.toNat + 1))
  else "0." ++ zeros (-leading - 1).toNat ++ String.ofList digits

def Format.render (format : Format) (x : Double) : String :=
  match x.view with
  | .nan => format.nan
  | .infinite negative => (if negative then "-" else "") ++ format.infinity
  | .finite negative significand exponent =>
    (if negative then "-" else "") ++
      (if significand = 0 then "0.0" else format.layout (shortest significand exponent))

end Double

end ObjectStore
