/-!
# Hexadecimal digits
-/

namespace ScriptForms.Text

/-- A hexadecimal digit. -/
def isHexDigit (c : Char) : Bool :=
  c.isDigit || ('a' ≤ c && c ≤ 'f') || ('A' ≤ c && c ≤ 'F')

/-- The value of a hexadecimal digit. -/
def hexDigit? (c : Char) : Option Nat :=
  if c.isDigit then some (c.toNat - '0'.toNat)
  else if 'a' ≤ c && c ≤ 'f' then some (c.toNat - 'a'.toNat + 10)
  else if 'A' ≤ c && c ≤ 'F' then some (c.toNat - 'A'.toNat + 10)
  else none

/-- A text without the plus sign in front of it. -/
def stripPlus : List Char → List Char
  | '+' :: rest => rest
  | text => text

/-- The number that a text writes in hexadecimal digits, with or without a plus sign, if it fits in
32 bits. -/
def hexValue? (text : List Char) : Option Nat := do
  let digits := stripPlus text
  guard !digits.isEmpty
  let values ← digits.mapM hexDigit?
  let value := values.foldl (fun n d => 16 * n + d) 0
  guard (value < 0x100000000)
  return value

end ScriptForms.Text
