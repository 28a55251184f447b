import ScriptForms.Text.Hex
import ScriptForms.Text.Parser
import ScriptForms.Toml.Basic

/-!
# Reading TOML

* `Toml.value`: a value.
* `Toml.parse?`: a document. Its lines are read first and then put together, so that a key or a
  table that is defined twice is refused.
-/

namespace ScriptForms.Toml

open Lexeme
open Text (isHexDigit hexValue?)

/-! ### Blanks and comments -/

/-- A blank inside a line. -/
def isBlank (c : Char) : Bool := c == ' ' || c == '\t'

/-- A character that can stand in a comment or a string. -/
def isPrinted (c : Char) : Bool := c == '\t' || (c.toNat ≥ 0x20 && c.toNat ≠ 0x7f)

/-- A line break. -/
def lineBreak : Lexeme := longest [text "\n", text "\r\n"]

/-- A comment. -/
def comment : Lexeme := (text "#").seq (char isPrinted).many

/-- Blanks inside a line. -/
def blanks : Parser Unit := discard (exactly (char isBlank).many)

/-- Blanks, line breaks and comments. -/
def filler : Parser Unit :=
  discard (exactly (longest [char isBlank, lineBreak, comment.seq lineBreak]).many)

/-- A fixed text. -/
def mark (s : String) : Parser Unit := discard (exactly (text s))

/-! ### Strings -/

/-- The character of a code, if there is one. -/
def codeChar (digits : List Char) : Parser (List Char) := do
  match hexValue? digits with
  | some code =>
    guard (decide code.isValidChar)
    return [Char.ofNat code]
  | none => failure

/-- A character that is written with a backslash. -/
def escape : Parser (List Char) := do
  mark "\\"
  match ← exactly (char fun _ => true) with
  | ['b'] => return ['\x08']
  | ['t'] => return ['\t']
  | ['n'] => return ['\n']
  | ['f'] => return ['\x0c']
  | ['r'] => return ['\r']
  | ['"'] => return ['"']
  | ['\\'] => return ['\\']
  | ['u'] => codeChar (← exactly ((char isHexDigit).times 4))
  | ['U'] => codeChar (← exactly ((char isHexDigit).times 8))
  | _ => failure

/-- A backslash at the end of a line, with the blanks and line breaks behind it. -/
def continuation : Parser (List Char) := do
  mark "\\"
  blanks
  discard (exactly lineBreak)
  discard (exactly (longest [char isBlank, lineBreak]).many)
  return []

/-- A line break of a string. -/
def brokenLine : Parser (List Char) := exactly lineBreak *> pure ['\n']

/-- One or two quotes inside a string that three quotes end. -/
def innerQuotes (quote : Char) : Parser (List Char) := do
  let quotes ← exactly (char (· == quote)).many1
  guard (quotes.length < 3)
  return quotes

/-- The end of a string that three quotes end, with up to two quotes directly before them. -/
def closingQuotes (quote : Char) : Parser (List Char) := do
  let quotes ← exactly ((char (· == quote)).atMost 5)
  guard (quotes.length ≥ 3)
  return quotes.drop 3

/-- A string over several lines, from the pieces it is made of. -/
def longString (quote : Char) (piece : Parser (List Char)) : Parser String := do
  discard (exactly ((char (· == quote)).times 3))
  discard (exactly lineBreak.opt)
  let pieces ← Parser.many (piece <|> brokenLine <|> innerQuotes quote)
  let last ← closingQuotes quote
  return String.ofList (pieces.flatten ++ last)

/-- A string on one line, from the pieces it is made of. -/
def shortString (quote : Char) (piece : Parser (List Char)) : Parser String := do
  discard (exactly (char (· == quote)))
  let pieces ← Parser.many piece
  discard (exactly (char (· == quote)))
  return String.ofList pieces.flatten

/-- Characters of a string with escapes. -/
def basicText : Parser (List Char) :=
  exactly (char fun c => isPrinted c && c != '"' && c != '\\').many1

/-- Characters of a string without escapes. -/
def literalText : Parser (List Char) := exactly (char fun c => isPrinted c && c != '\'').many1

/-- A string on one line. -/
def lineString : Parser String :=
  shortString '"' (basicText <|> escape) <|> shortString '\'' literalText

/-- A string. -/
def anyString : Parser String :=
  longString '"' (basicText <|> continuation <|> escape) <|> longString '\'' literalText <|>
  lineString

/-! ### Numbers, dates and times -/

/-- Digits with single underscores between them. -/
def digits (p : Char → Bool) : Lexeme := (char p).seq ((text "_").opt.seq (char p)).many

/-- A sign that may be left out. -/
def sign : Lexeme := (char fun c => c == '+' || c == '-').opt

/-- A decimal integer, without leading zeros. -/
def decimalInteger : Lexeme :=
  sign.seq (longest [text "0",
    (char fun c => '1' ≤ c && c ≤ '9').seq ((text "_").opt.seq (char Char.isDigit)).many])

/-- An integer. -/
def integer : Lexeme :=
  longest [decimalInteger, (text "0x").seq (digits isHexDigit),
    (text "0o").seq (digits fun c => '0' ≤ c && c ≤ '7'),
    (text "0b").seq (digits fun c => c == '0' || c == '1')]

/-- The exponent of a number. -/
def exponent : Lexeme := ((char fun c => c == 'e' || c == 'E').seq sign).seq (digits Char.isDigit)

/-- A number that is no integer. -/
def float : Lexeme :=
  longest [
    decimalInteger.seq exponent,
    (decimalInteger.seq ((text ".").seq (digits Char.isDigit))).seq exponent.opt,
    sign.seq (longest [text "inf", text "nan"])]

/-- A number of digits. -/
def places (count : Nat) : Lexeme := (char Char.isDigit).times count

/-- A date. -/
def date : Lexeme := (((places 4).seq (text "-")).seq (places 2)).seq ((text "-").seq (places 2))

/-- A time of the day. -/
def time : Lexeme :=
  ((((places 2).seq (text ":")).seq (places 2)).seq ((text ":").seq (places 2))).seq
    ((text ".").seq (char Char.isDigit).many1).opt

/-- The distance of a time from the universal time. -/
def timeOffset : Lexeme :=
  longest [char fun c => c == 'Z' || c == 'z',
    ((char fun c => c == '+' || c == '-').seq (places 2)).seq ((text ":").seq (places 2))]

/-- A date with or without a time, or a time. -/
def moment : Lexeme :=
  longest [
    date.seq (((char fun c => c == 'T' || c == 't' || c == ' ').seq time).seq timeOffset.opt).opt,
    time]

/-! ### Keys and values -/

/-- A name of a key. -/
def simpleKey : Parser String :=
  (String.ofList <$> exactly (char fun c => c.isAlphanum || c == '_' || c == '-').many1) <|>
  lineString

/-- A key: the names before its last dot, and the last name. -/
def key : Parser (List String × String) := do
  let names ← (blanks *> simpleKey <* blanks).separated1 (mark ".")
  return (names.dropLast, names.getLastD "")

/-- An array. -/
def arrayRule (inner : Parser Toml) : Parser Toml := do
  mark "["
  let items ← (filler *> inner <* filler).separated (mark ",")
  if !items.isEmpty then discard (mark ",").option
  filler
  mark "]"
  return .array items

/-- A key with a value. -/
def keyValue (inner : Parser Toml) : Parser ((List String × String) × Toml) := do
  let name ← key
  mark "="
  blanks
  return (name, ← inner)

/-- A table in braces. -/
def inlineRule (inner : Parser Toml) : Parser Toml := do
  mark "\x7b"
  blanks
  let pairs ← (keyValue inner <* blanks).separated (mark ",")
  mark "\x7d"
  let defined := pairs.foldlM (fun t (name, item) => t.define .inlineDotted name.1 name.2 item)
    (⟨.inline, []⟩ : Table)
  match defined with
  | some t => return t.toToml
  | none => failure

/-- A value, given the values inside it. -/
def valueRule (inner : Parser Toml) : Parser Toml :=
  (.string <$> anyString) <|>
  (mark "true" *> pure (.boolean true)) <|>
  (mark "false" *> pure (.boolean false)) <|>
  arrayRule inner <|>
  inlineRule inner <|>
  ((.literal ∘ String.ofList) <$> exactly (longest [moment, float, integer]))

/-- A value that is nested no deeper than the given depth. -/
def valueAt : (depth : Nat) → Parser Toml
  | 0 => failure
  | depth + 1 => fun cursor => valueRule (valueAt depth) cursor

/-- A value. -/
def value : Parser Toml := do valueAt (← get).rest.length

/-! ### Documents -/

/-- What a line of a document says. -/
inductive Line where
  | blank
  | header (path : List String) (key : String)
  /-- A header in double brackets. -/
  | itemHeader (path : List String) (key : String)
  | define (path : List String) (key : String) (value : Toml)

/-- What a line says, before its comment. -/
def content : Parser Line :=
  (do
    mark "[["
    let (path, name) ← key
    mark "]]"
    return .itemHeader path name) <|>
  (do
    mark "["
    let (path, name) ← key
    mark "]"
    return .header path name) <|>
  (do
    let (name, item) ← keyValue value
    return .define name.1 name.2 item) <|>
  pure .blank

/-- A line without its break. -/
def line : Parser Line := blanks *> content <* blanks <* discard (exactly comment).option

/-- The lines of a document. -/
def lines : Parser (List Line) := do
  discard (exactly (text "\ufeff")).option
  let found ← line.separated1 (exactly lineBreak)
  guard (← get).rest.isEmpty
  return found

/-- A document under construction: its table and the path of the table that is open. -/
structure Draft where
  root : Table
  current : List String

/-- A document under construction with one more line. -/
def Draft.add (draft : Draft) : Line → Option Draft
  | .blank => some draft
  | .header path name => do
    let root ← draft.root.update .implied false (Table.openTable name) path
    return ⟨root, path ++ [name]⟩
  | .itemHeader path name => do
    let root ← draft.root.update .implied false (Table.openItem name) path
    return ⟨root, path ++ [name]⟩
  | .define path name item => do
    let root ← draft.root.update .implied false (Table.define .dotted path name item) draft.current
    return { draft with root := root }

/-- The table of a document. -/
def parse? (source : String) : Option Table := do
  let (found, _) ← lines.run { offset := 0, rest := source.toList }
  let draft ← found.foldlM Draft.add ⟨⟨.header, []⟩, []⟩
  return draft.root

end ScriptForms.Toml
