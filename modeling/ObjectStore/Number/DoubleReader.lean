import ObjectStore.Number.Double
import ObjectStore.Text.Numeral

/-!
# Reading doubles

The reader takes the decimal that the text spells and rounds it once. A point needs a digit on at least one side of it.
-/

namespace ObjectStore

namespace Double

/-- An exponent mark, an optional sign and at least one digit; nothing at all stands for exponent zero. -/
def exponentPart? : List Char → Option Int
  | [] => some 0
  | c :: rest =>
    if c == 'e' || c == 'E' then Numeral.integer? rest else none

/-- Digits with an optional point and exponent, without a sign. -/
def ofUnsigned? (negative : Bool) (text : List Char) : Option Double :=
  let (whole, rest) := Numeral.splitDigits text
  let (fraction, rest) := match rest with
    | '.' :: rest => Numeral.splitDigits rest
    | _ => ([], rest)
  let digits := whole ++ fraction
  if digits.isEmpty then none
  else (exponentPart? rest).map fun exponent =>
    ofDecimal negative (Numeral.accumulate 0 digits) (exponent - fraction.length)

/-- The words for infinity and for no number, in any case. -/
def ofWord? (negative : Bool) (text : List Char) : Option Double :=
  let word := String.ofList (text.map Char.toLower)
  if word = "inf" || word = "infinity" then some (infinity negative)
  else if word = "nan" then some nan
  else none

def ofText? (text : List Char) : Option Double :=
  let (negative, body) := match text with
    | '-' :: rest => (true, rest)
    | '+' :: rest => (false, rest)
    | _ => (false, text)
  (ofWord? negative body).or (ofUnsigned? negative body)

end Double

end ObjectStore
