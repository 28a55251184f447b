import ScriptForms.Source.Lexeme

/-!
# The value of a string

* `unescape`: the value of the characters between the quotes of a string or of the text of a
  template. A backslash starts an escape: a letter for a control character, a code in hexadecimal
  digits, a line break that counts for nothing, or any other character for itself. Two codes that
  form a surrogate pair stand for one character.
-/

namespace ScriptForms.Source

open Text (hexValue?)

/-- The character of a code, or the replacement character if there is none. -/
def charOfCode (code : Nat) : Char := if code.isValidChar then Char.ofNat code else '\ufffd'

/-- Whether a code is the first of a surrogate pair. -/
def isHighSurrogate (code : Nat) : Bool := 0xd800 ≤ code && code < 0xdc00

/-- Whether a code is the second of a surrogate pair. -/
def isLowSurrogate (code : Nat) : Bool := 0xdc00 ≤ code && code < 0xe000

/-- The code that a surrogate pair stands for. -/
def pairCode (high low : Nat) : Nat := 0x10000 + (high - 0xd800) * 0x400 + (low - 0xdc00)

/-- The digits of a code after `\u`, and the rest: digits in braces, or four characters. -/
def codeDigits : List Char → List Char × List Char
  | '\x7b' :: rest => (rest.takeWhile (· ≠ '\x7d'), (rest.dropWhile (· ≠ '\x7d')).drop 1)
  | rest => (rest.take 4, rest.drop 4)

/-- The second code of a surrogate pair at the front of a text, and the rest. -/
def lowSurrogate? : List Char → Option (Nat × List Char)
  | '\\' :: 'u' :: rest => do
    let low ← hexValue? (rest.take 4)
    guard (isLowSurrogate low)
    return (low, rest.drop 4)
  | _ => none

/-- The value of a code after `\u`, and the rest. -/
def unescapeCode (input : List Char) : List Char × List Char :=
  let (digits, rest) := codeDigits input
  match hexValue? digits with
  | none => ('\\' :: 'u' :: digits, rest)
  | some code =>
    match if isHighSurrogate code then lowSurrogate? rest else none with
    | some (low, rest) => ([charOfCode (pairCode code low)], rest)
    | none => ([charOfCode code], rest)

/-- The value of an escape after its backslash, and the rest. -/
def unescapeFirst : List Char → List Char × List Char
  | 'n' :: rest => (['\n'], rest)
  | 't' :: rest => (['\t'], rest)
  | 'r' :: rest => (['\r'], rest)
  | 'b' :: rest => (['\x08'], rest)
  | 'f' :: rest => (['\x0c'], rest)
  | 'v' :: rest => (['\x0b'], rest)
  | '0' :: rest => (['\x00'], rest)
  | 'x' :: rest =>
    match hexValue? (rest.take 2) with
    | some code => ([charOfCode code], rest.drop 2)
    | none => ('\\' :: 'x' :: rest.take 2, rest.drop 2)
  | 'u' :: rest => unescapeCode rest
  | '\r' :: '\n' :: rest => ([], rest)
  | c :: rest => if isLineEnd c then ([], rest) else ([c], rest)
  | [] => (['\\'], [])

/-- The value of a text with no more characters than there are items of `bound`. -/
def unescapeWithin : (bound : List Char) → List Char → List Char
  | _ :: bound, '\\' :: rest =>
    (unescapeFirst rest).1 ++ unescapeWithin bound (unescapeFirst rest).2
  | _ :: bound, c :: rest => c :: unescapeWithin bound rest
  | _, _ => []

/-- The value of the text of a string or a template. -/
def unescape (text : List Char) : List Char := unescapeWithin text text

/-- What stands between the quotes of a text, if it has the same quote at both ends. -/
def stripQuotes : List Char → List Char
  | first :: rest =>
    match rest.getLast? with
    | some last =>
      if first = last ∧ (first = '"' ∨ first = '\'') then rest.dropLast else first :: rest
    | none => [first]
  | [] => []

/-- The value of a string in its quotes. -/
def stringValue (text : List Char) : String := String.ofList (unescape (stripQuotes text))

end ScriptForms.Source
