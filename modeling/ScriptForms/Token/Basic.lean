import ScriptForms.Text.Blank

/-!
# Lisp tokens

The text of a program is a sequence of tokens: opening and closing delimiters, atoms and comments.

* A string is one atom, from its quote to the next quote that no backslash escapes; so is a string
  directly after `#`.
* A comment runs from `;` to the end of its line and loses its trailing white space.
* Any other atom runs up to the next delimiter, quote, semicolon or white space.

`Token.scan` finds the tokens of a text together with the offset of each in UTF-8 bytes.
-/

namespace ScriptForms

/-- A pair of delimiters. -/
inductive Bracket where
  | round
  | square
  | curly
  deriving DecidableEq, Inhabited

namespace Bracket

/-- The opening delimiter of a pair. -/
def opening : Bracket → Char
  | .round => '('
  | .square => '['
  | .curly => '\x7b'

/-- The closing delimiter of a pair. -/
def closing : Bracket → Char
  | .round => ')'
  | .square => ']'
  | .curly => '\x7d'

/-- The pair that a character opens. -/
def ofOpening? (c : Char) : Option Bracket :=
  if c = '(' then some .round else if c = '[' then some .square
  else if c = '\x7b' then some .curly else none

/-- The pair that a character closes. -/
def ofClosing? (c : Char) : Option Bracket :=
  if c = ')' then some .round else if c = ']' then some .square
  else if c = '\x7d' then some .curly else none

end Bracket

/-- A token of Lisp text. -/
inductive Token where
  | opening (bracket : Bracket)
  | closing (bracket : Bracket)
  | atom (text : List Char)
  | comment (text : List Char)
  deriving DecidableEq, Inhabited

/-- Why a text has no layout; offsets are in UTF-8 bytes. -/
inductive LayoutError where
  /-- A delimiter without a partner. -/
  | unbalanced (offset : Nat)
  /-- A string without an end. -/
  | unterminatedString (offset : Nat)
  deriving DecidableEq, Inhabited

/-- The wording of a `LayoutError`. -/
def LayoutError.message : LayoutError → String
  | .unbalanced offset => "unbalanced delimiter at byte " ++ toString offset
  | .unterminatedString offset => "unterminated string starting at byte " ++ toString offset

namespace Token

/-- The characters that end an atom. -/
def isDelimiter (c : Char) : Bool :=
  (Bracket.ofOpening? c).isSome || (Bracket.ofClosing? c).isSome || c = '"' || c = ';' ||
    Text.isBlank c

/-- A string body up to and including its closing quote, and what follows it. -/
def stringBody : List Char → Option (List Char × List Char)
  | [] => none
  | '"' :: rest => some (['"'], rest)
  | ['\\'] => none
  | '\\' :: c :: rest => do
    let (body, rest) ← stringBody rest
    return ('\\' :: c :: body, rest)
  | c :: rest => do
    let (body, rest) ← stringBody rest
    return (c :: body, rest)

/-- The lexeme at the start of a text, what follows it, and the token it spells. The text is not
empty and does not start with white space; there is no lexeme if a string has no end. -/
def first : List Char → Option (List Char × List Char × Token)
  | [] => none
  | '"' :: rest => do
    let (body, rest) ← stringBody rest
    return ('"' :: body, rest, .atom ('"' :: body))
  | '#' :: '"' :: rest => do
    let (body, rest) ← stringBody rest
    return ('#' :: '"' :: body, rest, .atom ('#' :: '"' :: body))
  | ';' :: rest =>
    let body := rest.takeWhile (· ≠ '\n')
    some (';' :: body, rest.dropWhile (· ≠ '\n'), .comment (Text.trimEnd (';' :: body)))
  | c :: rest =>
    match Bracket.ofOpening? c, Bracket.ofClosing? c with
    | some bracket, _ => some ([c], rest, .opening bracket)
    | none, some bracket => some ([c], rest, .closing bracket)
    | none, none =>
      let body := rest.takeWhile (!isDelimiter ·)
      some (c :: body, rest.dropWhile (!isDelimiter ·), .atom (c :: body))

/-- The tokens of a text that starts at byte `offset`; at most `n` characters are looked at. -/
def scanFrom : Nat → Nat → List Char → Except LayoutError (List (Nat × Token))
  | 0, _, _ => .ok []
  | _ + 1, _, [] => .ok []
  | n + 1, offset, c :: rest =>
    if Text.isBlank c then scanFrom n (offset + c.utf8Size) rest
    else
      match first (c :: rest) with
      | none => .error (.unterminatedString offset)
      | some (lexeme, rest, token) => do
        let tokens ← scanFrom n (offset + Text.utf8Length lexeme) rest
        return (offset, token) :: tokens

/-- The tokens of a text with their offsets. -/
def scan (text : List Char) : Except LayoutError (List (Nat × Token)) :=
  scanFrom text.length 0 text

end Token

end ScriptForms
