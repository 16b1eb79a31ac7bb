import ObjectStore.Json
import ObjectStore.Number.Shortest

/-!
# Printing JSON

Documents are printed without blanks. Strings escape the quote, the backslash and the control characters and nothing else.
-/

namespace ObjectStore

namespace Json

/-- Numbers from 0.00001 to below 10^16 are written without an exponent. -/
def floatFormat : Double.Format where
  plainFrom := -5
  plainTo := 15
  plusSign := true
  nan := "null"
  infinity := "null"

def hexDigit (n : Nat) : Char := Nat.digitChar (n % 16)

def escape (c : Char) : List Char :=
  if c = '"' then ['\\', '"']
  else if c = '\\' then ['\\', '\\']
  else if c = '\x08' then ['\\', 'b']
  else if c = '\x0c' then ['\\', 'f']
  else if c = '\n' then ['\\', 'n']
  else if c = '\r' then ['\\', 'r']
  else if c = '\t' then ['\\', 't']
  else if c.toNat < 0x20 then ['\\', 'u', '0', '0', hexDigit (c.toNat / 16), hexDigit c.toNat]
  else [c]

def quoted (text : String) : String := String.ofList (['"'] ++ text.toList.flatMap escape ++ ['"'])

mutual

def toText : Json → String
  | null => "null"
  | boolean flag => if flag then "true" else "false"
  | integer n => toString n
  | float x => floatFormat.render x
  | string text => quoted text
  | array items => "[" ++ String.intercalate "," (itemTexts items) ++ "]"
  | object fields => "\x7b" ++ String.intercalate "," (fieldTexts fields) ++ "\x7d"
termination_by structural json => json

def itemTexts : List Json → List String
  | [] => []
  | item :: items => toText item :: itemTexts items
termination_by structural items => items

def fieldTexts : List (String × Json) → List String
  | [] => []
  | (key, value) :: fields => (quoted key ++ ":" ++ toText value) :: fieldTexts fields
termination_by structural fields => fields

end

end Json

end ObjectStore
