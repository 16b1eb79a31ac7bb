import ObjectStore.Calendar.Text
import ObjectStore.Number.Shortest
import ObjectStore.Text.Visible
import ObjectStore.Update

/-!
# Spelling out updates

How an update reads in a message: its operator and its operand, with the kind of every value named.
-/

namespace ObjectStore

namespace Spelling

/-- Numbers from 0.0001 to below 10^16 are spelled without an exponent. -/
def doubleFormat : Double.Format where
  plainFrom := -4
  plainTo := 15
  plusSign := false
  nan := "NaN"
  infinity := "inf"

def character (c : Char) : String :=
  if c = '"' then "\\\""
  else if c = '\\' then "\\\\"
  else if c = '\n' then "\\n"
  else if c = '\r' then "\\r"
  else if c = '\t' then "\\t"
  else if c = '\x00' then "\\0"
  else if Visible.isVisible c then String.singleton c
  else "\\u\x7b" ++ String.ofList (Nat.toDigits 16 c.toNat) ++ "\x7d"

def quoted (text : String) : String := "\"" ++ String.join (text.toList.map character) ++ "\""

/-- The 64-bit words of a number, the least significant first; zero has none. -/
def words (n : Nat) : List Nat :=
  if _ : n = 0 then [] else n % twoTo 64 :: words (n / twoTo 64)
termination_by n
decreasing_by exact Nat.div_lt_self (Nat.pos_of_ne_zero ‹_›) (by decide)

/-- A decimal by its sign, its scale and the words of its digits. -/
def decimal (d : Decimal) : String :=
  let sign := if d.digits = 0 then "NoSign" else if d.digits < 0 then "Minus" else "Plus"
  "BigDecimal(sign=" ++ sign ++ ", scale=" ++ toString d.scale ++ ", digits=["
    ++ String.intercalate ", " ((words d.digits.natAbs).map toString) ++ "])"

mutual

def value : Value → String
  | .null => "Null"
  | .boolean flag => "Boolean(" ++ (if flag then "true" else "false") ++ ")"
  | .string text => "String(" ++ quoted text ++ ")"
  | .integer n => "Integer(" ++ toString n.toInt ++ ")"
  | .number x => "Number(" ++ doubleFormat.render x ++ ")"
  | .decimal d => "Decimal(" ++ decimal d ++ ")"
  | .timestamp t => "Timestamp(" ++ t.toText .shortest ++ ")"
  | .date d => "Date(" ++ d.toText ++ ")"
  | .time t => "Time(" ++ t.toText .shortest ++ ")"
  | .binary bytes => "Binary([" ++ String.intercalate ", " (bytes.map fun byte => toString byte.toNat) ++ "])"
  | .array items => "Array([" ++ String.intercalate ", " (values items) ++ "])"
  | .object fields => "Object(\x7b" ++ String.intercalate ", " (entries fields) ++ "\x7d)"
termination_by structural value => value

def values : List Value → List String
  | [] => []
  | item :: items => value item :: values items
termination_by structural items => items

def entries : List (String × Value) → List String
  | [] => []
  | (key, field) :: fields => (quoted key ++ ": " ++ value field) :: entries fields
termination_by structural fields => fields

end

end Spelling

namespace Update

def spelling : Update → String
  | set operand => "Set(" ++ Spelling.value operand ++ ")"
  | unset => "Unset"
  | increment operand => "Increment(" ++ Spelling.value operand ++ ")"
  | multiply operand => "Multiply(" ++ Spelling.value operand ++ ")"
  | max operand => "Max(" ++ Spelling.value operand ++ ")"
  | min operand => "Min(" ++ Spelling.value operand ++ ")"
  | push operand => "Push(" ++ Spelling.value operand ++ ")"
  | removeAll operands => "RemoveAll([" ++ String.intercalate ", " (Spelling.values operands) ++ "])"
  | popFirst => "PopFirst"
  | popLast => "PopLast"

def requireNumber (update : Update) (operand : Value) : Outcome Unit :=
  if operand.isNumeric then .ok ()
  else .error (.unsupportedType operand.kind (update.spelling ++ " needs a numeric operand"))

end Update

end ObjectStore
