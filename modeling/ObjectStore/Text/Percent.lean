/-!
# Percent escapes

A document database gives points, dollar signs and zero characters in names a meaning of its own or refuses them. Names are kept with those characters escaped, and with every percent sign escaped too, so that a name that looks escaped already stays apart from the one that it looks like.
-/

namespace ObjectStore

namespace Percent

/-- The escape of a character; most characters stand for themselves. -/
def escapeChar (c : Char) : List Char :=
  if c = '%' then ['%', '2', '5']
  else if c = '.' then ['%', '2', 'E']
  else if c = '$' then ['%', '2', '4']
  else if c = '\x00' then ['%', '0', '0']
  else [c]

def escapeChars (text : List Char) : List Char := text.flatMap escapeChar

/-- Reads escapes back. A percent sign that begins none of them stands for itself. -/
def restoreChars : List Char → List Char
  | '%' :: '2' :: '5' :: rest => '%' :: restoreChars rest
  | '%' :: '2' :: 'E' :: rest => '.' :: restoreChars rest
  | '%' :: '2' :: '4' :: rest => '$' :: restoreChars rest
  | '%' :: '0' :: '0' :: rest => '\x00' :: restoreChars rest
  | c :: rest => c :: restoreChars rest
  | [] => []

def hexValue? (byte : UInt8) : Option UInt8 :=
  if 0x30 ≤ byte ∧ byte ≤ 0x39 then some (byte - 0x30)
  else if 0x41 ≤ byte ∧ byte ≤ 0x46 then some (byte - 0x37)
  else if 0x61 ≤ byte ∧ byte ≤ 0x66 then some (byte - 0x57)
  else none

/-- Replaces every percent sign with two hexadecimal digits by the byte that they spell. -/
def decodeBytes : List UInt8 → List UInt8
  | 0x25 :: high :: low :: rest =>
    match hexValue? high, hexValue? low with
    | some h, some l => (16 * h + l) :: decodeBytes rest
    | _, _ => 0x25 :: decodeBytes (high :: low :: rest)
  | byte :: rest => byte :: decodeBytes rest
  | [] => []

/-- The text that a text with bytes as escapes stands for, if the bytes are UTF-8. -/
def decode? (text : List Char) : Option String :=
  String.fromUTF8? ⟨(decodeBytes (String.ofList text).toUTF8.toList).toArray⟩

/-- The name under which a name is kept. -/
def escape (name : String) : String := String.ofList (escapeChars name.toList)

def restore (name : String) : String := String.ofList (restoreChars name.toList)

end Percent

end ObjectStore
