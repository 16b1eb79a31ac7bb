import ObjectStore.Number.Power

/-!
# Binary floating point

A double is kept as its 64 bits, so two doubles are the same datum exactly when their bits agree. All arithmetic is exact: an operation takes the integers and powers of two that the bits stand for, computes the true result and rounds it once, to the nearest double with ties to the even significand. Only a power is a product of several roundings.
-/

namespace ObjectStore

/-- A double-precision number of IEEE 754, as its bits. -/
structure Double where
  bits : UInt64
deriving DecidableEq, Inhabited

namespace Double

/-- What the bits stand for. A finite number is the significand times a power of two. -/
inductive View where
  | nan
  | infinite (negative : Bool)
  | finite (negative : Bool) (significand : Nat) (exponent : Int)
deriving DecidableEq, Repr

def negative (x : Double) : Bool := twoTo 63 ≤ x.bits.toNat

/-- All bits but the sign. Among doubles of one sign they are ordered as the numbers are. -/
def magnitude (x : Double) : Nat := x.bits.toNat % twoTo 63

/-- The magnitude bits of infinity; every greater magnitude is a NaN. -/
def infinityBits : Nat := 2047 * twoTo 52

def ofMagnitude (negative : Bool) (magnitude : Nat) : Double :=
  ⟨UInt64.ofNat (if negative then twoTo 63 + magnitude else magnitude)⟩

/-- The one NaN that arithmetic produces. -/
def nan : Double := ⟨0x7ff8000000000000⟩

def infinity (negative : Bool) : Double := ofMagnitude negative infinityBits

def zero (negative : Bool) : Double := ofMagnitude negative 0

def isNaN (x : Double) : Bool := infinityBits < x.magnitude

def isFinite (x : Double) : Bool := x.magnitude < infinityBits

/-- The bits with every NaN replaced by one of them. -/
def canonicalBits (x : Double) : UInt64 := if x.isNaN then nan.bits else x.bits

/-- Reads the bits: a zero exponent field means a subnormal, a full one no finite number. -/
def view (x : Double) : View :=
  let field : Nat := x.magnitude / twoTo 52
  let fraction : Nat := x.magnitude % twoTo 52
  if field = 2047 then
    if fraction = 0 then .infinite x.negative else .nan
  else if field = 0 then .finite x.negative fraction (-1074)
  else .finite x.negative (twoTo 52 + fraction) ((field : Int) - 1075)

/-- A signed integer with the order of the numbers: both zeros are 0. NaN has no place in it. -/
def rank (x : Double) : Int := if x.negative then -(x.magnitude : Int) else x.magnitude

/-- The numeric order; a NaN is unordered. -/
def compare? (x y : Double) : Option Ordering :=
  if x.isNaN || y.isNaN then none else some (Ord.compare x.rank y.rank)

/-! ### Rounding -/

/-- The integer nearest to a quotient, a half going to the even neighbour. -/
def roundHalfEven (num den : Nat) : Nat :=
  let floor := num / den
  let twice := 2 * (num % den)
  if twice < den then floor
  else if den < twice then floor + 1
  else if floor % 2 = 0 then floor else floor + 1

/-- The quotient `num / den` in units of `2 ^ exponent`, as a numerator and a denominator. -/
def inUnits (num den : Nat) (exponent : Int) : Nat × Nat :=
  (num * twoTo (-exponent).toNat, den * twoTo exponent.toNat)

/-- The exponent of the unit in which `num / den` has 53 binary digits, but no smaller than that of the subnormals. -/
def unitExponent (num den : Nat) : Int :=
  let guess : Int := (Nat.log2 num : Int) - (Nat.log2 den : Int) - 52
  let scaled := inUnits num den guess
  let exact := if scaled.1 / scaled.2 < twoTo 52 then guess - 1 else guess
  max exact (-1074)

/-- The magnitude bits of the double nearest to `num / den`. Rounding up to the next power of two carries into the exponent field by itself. -/
def roundedBits (num den : Nat) : Nat :=
  if num = 0 then 0
  else
    let unit := unitExponent num den
    let scaled := inUnits num den unit
    let bits := (unit + 1074).toNat * twoTo 52 + roundHalfEven scaled.1 scaled.2
    min bits infinityBits

/-- The double nearest to `num / den`; too large a quotient becomes infinity. -/
def ofRatio (negative : Bool) (num den : Nat) : Double := ofMagnitude negative (roundedBits num den)

def ofDyadic (negative : Bool) (significand : Nat) (exponent : Int) : Double :=
  ofRatio negative (significand * twoTo exponent.toNat) (twoTo (-exponent).toNat)

def ofInt (n : Int) : Double := ofRatio (n < 0) n.natAbs 1

/-- Beyond these decimal magnitudes a number is infinite or rounds to zero whatever its digits. -/
def decimalReach : Int := 400

def ofDecimal (negative : Bool) (digits : Nat) (exponent : Int) : Double :=
  let reach : Int := (Nat.toDigits 10 digits).length + exponent
  if digits = 0 then zero negative
  else if decimalReach < reach then infinity negative
  else if reach < -decimalReach then zero negative
  else ofRatio negative (digits * tenTo exponent.toNat) (tenTo (-exponent).toNat)

/-! ### Arithmetic -/

def signed (negative : Bool) (significand : Nat) : Int := if negative then -(significand : Int) else significand

/-- The exact sum, rounded once. Opposite numbers sum to the positive zero. -/
def add (x y : Double) : Double :=
  match x.view, y.view with
  | .nan, _ | _, .nan => nan
  | .infinite s, .infinite t => if s = t then infinity s else nan
  | .infinite s, _ | _, .infinite s => infinity s
  | .finite s m e, .finite t n f =>
    let unit := min e f
    let sum := signed s m * twoTo (e - unit).toNat + signed t n * twoTo (f - unit).toNat
    if sum = 0 then zero (s && t) else ofDyadic (sum < 0) sum.natAbs unit

def neg (x : Double) : Double := ofMagnitude (!x.negative) x.magnitude

def sub (x y : Double) : Double := add x y.neg

def mul (x y : Double) : Double :=
  match x.view, y.view with
  | .nan, _ | _, .nan => nan
  | .infinite s, .infinite t => infinity (s != t)
  | .infinite s, .finite t n _ | .finite t n _, .infinite s => if n = 0 then nan else infinity (s != t)
  | .finite s m e, .finite t n f => ofDyadic (s != t) (m * n) (e + f)

/-- A power by repeated squaring. Every product is rounded, so a high power may be some units in the last place off. -/
def power (x : Double) (n : Nat) : Double := go (Nat.log2 n + 1) x n (ofInt 1)
where
  /-- One step for each binary digit of the exponent, the lowest first. -/
  go : Nat → Double → Nat → Double → Double
    | 0, _, _, product => product
    | limit + 1, square, n, product =>
      go limit (mul square square) (n / 2) (if n % 2 = 1 then mul product square else product)

def div (x y : Double) : Double :=
  match x.view, y.view with
  | .nan, _ | _, .nan => nan
  | .infinite _, .infinite _ => nan
  | .infinite s, .finite t _ _ => infinity (s != t)
  | .finite s _ _, .infinite t => zero (s != t)
  | .finite s m e, .finite t n f =>
    if n = 0 then if m = 0 then nan else infinity (s != t)
    else ofRatio (s != t) (m * twoTo (e - f).toNat) (n * twoTo (f - e).toNat)

/-- The greatest integer not above a finite number. -/
def floor? (x : Double) : Option Int :=
  match x.view with
  | .finite s m e => some (Int.fdiv (signed s m * twoTo e.toNat) (twoTo (-e).toNat : Nat))
  | _ => none

/-- The integer nearest to a finite number, a half going away from zero. -/
def round? (x : Double) : Option Int :=
  match x.view with
  | .finite s m e =>
    let den := twoTo (-e).toNat
    some (signed s ((2 * (m * twoTo e.toNat) + den) / (2 * den)))
  | _ => none

def ofSingleBits (bits : UInt32) : Double :=
  let negative : Bool := twoTo 31 ≤ bits.toNat
  let field : Nat := bits.toNat / twoTo 23 % 256
  let fraction : Nat := bits.toNat % twoTo 23
  if field = 255 then if fraction = 0 then infinity negative else nan
  else if field = 0 then ofDyadic negative fraction (-149)
  else ofDyadic negative (twoTo 23 + fraction) ((field : Int) - 150)

/-- The nearest single-precision number, a half going to the even significand. -/
def roundToSingle (x : Double) : Double :=
  match x.view with
  | .finite s m e =>
    let excess := max ((Nat.log2 m : Int) - 23) (-149 - e)
    let kept := roundHalfEven m (twoTo excess.toNat)
    if excess ≤ 0 then x
    else if 128 ≤ (Nat.log2 kept : Int) + (e + excess) then infinity s
    else ofDyadic s kept (e + excess)
  | _ => x

end Double

end ObjectStore
