import ObjectStore.Json
import ObjectStore.Text.Numeral

/-!
# Reading JSON

A recursive descent over the characters. Nesting is limited, a number too large for a double is refused, and of two members with one name the first gives the place and the last the value. The fuel of the descent is computed from the length of the text: every step that recurs has consumed a character or turns from a value to its members.
-/

namespace ObjectStore

namespace Json

/-- The deepest nesting of arrays and objects that is read. -/
def depthLimit : Nat := 127

def isSpace (c : Char) : Bool := c == ' ' || c == '\n' || c == '\t' || c == '\r'

def skipSpace (text : List Char) : List Char := text.dropWhile isSpace

def hexValue? (c : Char) : Option Nat :=
  if c.isDigit then some (c.toNat - '0'.toNat)
  else if 'a' ≤ c ∧ c ≤ 'f' then some (c.toNat - 'a'.toNat + 10)
  else if 'A' ≤ c ∧ c ≤ 'F' then some (c.toNat - 'A'.toNat + 10)
  else none

def hexUnit? : List Char → Option (Nat × List Char)
  | a :: b :: c :: d :: rest => do
    let a ← hexValue? a
    let b ← hexValue? b
    let c ← hexValue? c
    let d ← hexValue? d
    some (((a * 16 + b) * 16 + c) * 16 + d, rest)
  | _ => none

/-- The character of an escape by number. Two surrogates make one character and a lone one none. -/
def unicodeEscape? (text : List Char) : Option (Char × List Char) := do
  let (unit, rest) ← hexUnit? text
  if 0xd800 ≤ unit ∧ unit < 0xdc00 then
    match rest with
    | '\\' :: 'u' :: rest => do
      let (low, rest) ← hexUnit? rest
      if 0xdc00 ≤ low ∧ low < 0xe000 then
        some (Char.ofNat (0x10000 + (unit - 0xd800) * 0x400 + (low - 0xdc00)), rest)
      else none
    | _ => none
  else if 0xdc00 ≤ unit ∧ unit < 0xe000 then none
  else some (Char.ofNat unit, rest)

def escaped? : List Char → Option (Char × List Char)
  | '"' :: rest => some ('"', rest)
  | '\\' :: rest => some ('\\', rest)
  | '/' :: rest => some ('/', rest)
  | 'b' :: rest => some ('\x08', rest)
  | 'f' :: rest => some ('\x0c', rest)
  | 'n' :: rest => some ('\n', rest)
  | 'r' :: rest => some ('\r', rest)
  | 't' :: rest => some ('\t', rest)
  | 'u' :: rest => unicodeEscape? rest
  | _ => none

def stringBody? : Nat → List Char → List Char → Option (String × List Char)
  | 0, _, _ => none
  | _ + 1, _, [] => none
  | fuel + 1, read, c :: rest =>
    if c = '"' then some (String.ofList read.reverse, rest)
    else if c = '\\' then
      match escaped? rest with
      | some (c, rest) => stringBody? fuel (c :: read) rest
      | none => none
    else if c.toNat < 0x20 then none
    else stringBody? fuel (c :: read) rest

def stringRest? (text : List Char) : Option (String × List Char) := stringBody? (text.length + 1) [] text

/-- The digits before the point: a zero stands alone. -/
def wholeDigits? (text : List Char) : Option (List Char × List Char) :=
  match Numeral.splitDigits text with
  | ([], _) => none
  | (['0'], rest) => some (['0'], rest)
  | ('0' :: _, _) => none
  | (digits, rest) => some (digits, rest)

/-- An optional point with at least one digit. -/
def fractionDigits? : List Char → Option (List Char × List Char)
  | '.' :: rest =>
    match Numeral.splitDigits rest with
    | ([], _) => none
    | (digits, rest) => some (digits, rest)
  | text => some ([], text)

/-- An optional exponent with at least one digit; none at all is reported as such. -/
def exponent? : List Char → Option (Option Int × List Char)
  | c :: rest =>
    if c = 'e' ∨ c = 'E' then
      let (negative, rest) := match rest with
        | '-' :: rest => (true, rest)
        | '+' :: rest => (false, rest)
        | _ => (false, rest)
      match Numeral.splitDigits rest with
      | ([], _) => none
      | (digits, rest) =>
        let n : Int := Numeral.accumulate 0 digits
        some (some (if negative then -n else n), rest)
    else some (none, c :: rest)
  | [] => some (none, [])

/-- The document of a number: an integer of 64 bits when it is written as one and fits, and a finite double otherwise. The text `-0` is a double, as no integer keeps its sign. -/
def ofNumeral (negative : Bool) (whole fraction : List Char) (exponent : Option Int) : Option Json :=
  let digits := Numeral.accumulate 0 (whole ++ fraction)
  let float := Double.ofDecimal negative digits (exponent.getD 0 - fraction.length)
  let asFloat := if float.isFinite then some (.float float) else none
  if fraction.isEmpty && exponent.isNone then
    if negative then if 0 < digits ∧ digits ≤ twoTo 63 then some (.integer (-(digits : Int))) else asFloat
    else if digits < twoTo 64 then some (.integer digits) else asFloat
  else asFloat

def number? (negative : Bool) (text : List Char) : Option (Json × List Char) := do
  let (whole, rest) ← wholeDigits? text
  let (fraction, rest) ← fractionDigits? rest
  let (exponent, rest) ← exponent? rest
  let json ← ofNumeral negative whole fraction exponent
  some (json, rest)

mutual

/-- A document, with the nesting that is still allowed. -/
def value? : Nat → Nat → List Char → Option (Json × List Char)
  | 0, _, _ => none
  | fuel + 1, depth, text =>
    match skipSpace text with
    | 'n' :: 'u' :: 'l' :: 'l' :: rest => some (.null, rest)
    | 't' :: 'r' :: 'u' :: 'e' :: rest => some (.boolean true, rest)
    | 'f' :: 'a' :: 'l' :: 's' :: 'e' :: rest => some (.boolean false, rest)
    | '"' :: rest => (stringRest? rest).map fun (text, rest) => (.string text, rest)
    | '[' :: rest =>
      match depth with
      | 0 => none
      | depth + 1 =>
        match skipSpace rest with
        | ']' :: rest => some (.array [], rest)
        | rest => (items? fuel depth [] rest).map fun (items, rest) => (.array items, rest)
    | '\x7b' :: rest =>
      match depth with
      | 0 => none
      | depth + 1 =>
        match skipSpace rest with
        | '\x7d' :: rest => some (.object [], rest)
        | rest => (members? fuel depth [] rest).map fun (fields, rest) => (.object fields, rest)
    | '-' :: rest => number? true rest
    | text => number? false text

def items? : Nat → Nat → List Json → List Char → Option (List Json × List Char)
  | 0, _, _, _ => none
  | fuel + 1, depth, read, text =>
    match value? fuel depth text with
    | none => none
    | some (item, rest) =>
      match skipSpace rest with
      | ',' :: rest => items? fuel depth (item :: read) rest
      | ']' :: rest => some ((item :: read).reverse, rest)
      | _ => none

def members? : Nat → Nat → OrderedMap Json → List Char → Option (OrderedMap Json × List Char)
  | 0, _, _, _ => none
  | fuel + 1, depth, read, text =>
    match skipSpace text with
    | '"' :: rest =>
      match stringRest? rest with
      | none => none
      | some (key, rest) =>
        match skipSpace rest with
        | ':' :: rest =>
          match value? fuel depth rest with
          | none => none
          | some (value, rest) =>
            let read := OrderedMap.insert read key value
            match skipSpace rest with
            | ',' :: rest => members? fuel depth read rest
            | '\x7d' :: rest => some (read, rest)
            | _ => none
        | _ => none
    | _ => none

end

/-- The document that a text spells, with nothing but blanks around it. -/
def ofText? (text : List Char) : Option Json :=
  match value? (2 * text.length + 2) depthLimit text with
  | some (json, rest) => if (skipSpace rest).isEmpty then some json else none
  | none => none

def ofBytes? (bytes : List UInt8) : Option Json :=
  (String.fromUTF8? ⟨bytes.toArray⟩).bind fun text => ofText? text.toList

end Json

end ObjectStore
