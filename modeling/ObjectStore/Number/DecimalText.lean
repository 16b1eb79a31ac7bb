import ObjectStore.Number.Decimal
import ObjectStore.Text.Numeral
import ObjectStore.Text.Split

/-!
# Decimal text

Decimals are written with all digits of their scale. Very small ones are written with an exponent, and so are those that would need many zeros behind their digits.
-/

namespace ObjectStore

namespace Decimal

/-- A fraction is written with an exponent when its scale exceeds its digit count by more than this. -/
def leadingZeroLimit : Int := 5

/-- At most this many zeros are written behind the digits of a whole number. -/
def trailingZeroLimit : Int := 15

def toText (d : Decimal) : String :=
  let digits := Numeral.digits d.digits.natAbs
  let sign := if d.digits < 0 then "-" else ""
  let text :=
    if d.digits = 0 then "0"
    else if d.scale ≤ 0 then
      if -d.scale ≤ trailingZeroLimit then
        String.ofList (digits ++ List.replicate (-d.scale).toNat '0')
      else String.ofList digits ++ "e+" ++ toString (-d.scale).toNat
    else if leadingZeroLimit < d.scale - digits.length then
      String.ofList (digits.take 1) ++
        (if digits.length = 1 then "" else "." ++ String.ofList (digits.drop 1)) ++
        "E" ++ toString ((digits.length : Int) - 1 - d.scale)
    else
      let scale := d.scale.toNat
      let full := List.replicate (scale + 1 - digits.length) '0' ++ digits
      String.ofList (full.take (full.length - scale)) ++ "." ++ String.ofList (full.drop (full.length - scale))
  sign ++ text

/-- The scale is kept in 64 bits. -/
def scaleFits (scale : Int) : Bool := fitsBits 64 scale

/-- An exponent is read into 128 bits. -/
def exponent? (text : List Char) : Option Int :=
  (Numeral.integer? text).filter (fitsBits 128)

/-- Digits with underscores between them, behind an optional plus sign. -/
def magnitude? (text : List Char) : Option Nat :=
  let body := match text with
    | '+' :: rest => rest
    | _ => text
  match body with
  | [] | '_' :: _ => none
  | _ =>
    if body.all fun c => c.isDigit || c == '_' then
      some (Numeral.accumulate 0 (body.filter (· != '_')))
    else none

/-- Digits with a sign. A plus sign behind the minus is refused. -/
def signedDigits? : List Char → Option Int
  | '-' :: '+' :: _ => none
  | '-' :: rest => (magnitude? rest).map fun n => -(n : Int)
  | text => (magnitude? text).map fun n => (n : Int)

/-- Reads a decimal: a sign, digits around at most one point, and an exponent. -/
def ofText? (text : List Char) : Option Decimal := do
  let (base, exponentText) := Split.atFirst (fun c => c == 'e' || c == 'E') text
  let exponent ← match exponentText with
    | some text => exponent? text
    | none => some 0
  let (lead, fraction) := Split.atFirst (· == '.') base
  let fraction := fraction.getD []
  let places := (fraction.filter (· != '_')).length
  let scale := (places : Int) - exponent
  if scaleFits scale then
    (signedDigits? (lead ++ fraction)).map fun digits => ⟨digits, scale⟩
  else none

end Decimal

end ObjectStore
