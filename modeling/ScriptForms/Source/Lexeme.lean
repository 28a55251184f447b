import ScriptForms.Text.Hex
import ScriptForms.Text.Lexeme

/-!
# The texts of a script

The classes of texts that a script is made of: comments, names, numbers, strings, regular
expressions, the parts of elements, and punctuation.
-/

namespace ScriptForms.Source

/-! ### Classes of characters -/

/-- Blanks between tokens. -/
def isSpace (c : Char) : Bool :=
  let n := c.toNat
  (0x09 ≤ n && n ≤ 0x0d) || n == 0x20 || n == 0xa0 || n == 0x1680 || (0x2000 ≤ n && n ≤ 0x200b) ||
    n == 0x2028 || n == 0x2029 || n == 0x202f || n == 0x205f || n == 0x2060 || n == 0x3000 ||
    n == 0xfeff

/-- The blanks among the first 128 characters. -/
def isPlainSpace (c : Char) : Bool :=
  let n := c.toNat
  (0x09 ≤ n && n ≤ 0x0d) || n == 0x20

/-- Characters that end a line for the purpose of leaving out a semicolon. -/
def isLineBreak (c : Char) : Bool :=
  c == '\n' || c.toNat == 0x2028 || c.toNat == 0x2029

/-- Characters that end a comment to the end of the line. -/
def isLineEnd (c : Char) : Bool := isLineBreak c || c == '\r'

/-- A letter of the first 128 characters. -/
def isPlainLetter (c : Char) : Bool := ('a' ≤ c && c ≤ 'z') || ('A' ≤ c && c ≤ 'Z')

/-- The characters below 128 that separate tokens. -/
def isPunctuation (c : Char) : Bool := ":;`\"'@#.,|^&<=>+-*/\\%?!~()[]\x7b\x7d".toList.contains c

/-- A character that continues a name. -/
def isNameChar (c : Char) : Bool := c.toNat ≥ 0x20 && !isSpace c && !isPunctuation c

/-- A character that starts a name. -/
def isNameStart (c : Char) : Bool := isNameChar c && !c.isDigit

open Lexeme
open Text (isHexDigit)

/-! ### Comments -/

/-- The length of an input up to the end of a block comment. -/
def blockCommentRest : Lexeme
  | '*' :: '/' :: _ => some 2
  | _ :: rest => (blockCommentRest rest).map (· + 1)
  | [] => none

/-- A comment. -/
def comment : Lexeme
  | '/' :: '/' :: rest => ((char (!isLineEnd ·)).many rest).map (· + 2)
  | '/' :: '*' :: rest => (blockCommentRest rest).map (· + 2)
  | _ => none

/-- A comment in the style of HTML. -/
def markup : Lexeme := (longest [text "<!--", text "-->"]).seq (char (!isLineBreak ·)).many

/-- Blanks. -/
def spaces : Lexeme := (char isSpace).many

/-- Blanks and comments. -/
def trivia : Lexeme := (longest [char isSpace, comment]).many

/-! ### Names and numbers -/

/-- A character that is written by its code in a name. -/
def nameEscape : Lexeme :=
  longest [
    (text "\\u").seq ((char isHexDigit).times 4),
    ((text "\\u\x7b").seq (char isHexDigit).many1).seq (text "\x7d")]

/-- A name or a keyword. -/
def name : Lexeme :=
  (longest [char isNameStart, nameEscape]).seq (longest [char isNameChar, nameEscape]).many

/-- A private name. -/
def privateName : Lexeme := (text "#").seq name

/-- Digits with single underscores between them. -/
def digits (p : Char → Bool) : Lexeme :=
  (char p).seq ((text "_").opt.seq (char p)).many

/-- Decimal digits. -/
def decimalDigits : Lexeme := digits Char.isDigit

/-- A number in the base that a letter after `0` names. -/
def basedNumber (letters : String) (p : Char → Bool) : Lexeme :=
  ((text "0").seq (char letters.toList.contains)).seq (digits p)

/-- A number in base 16, 8 or 2. -/
def basedInteger : Lexeme :=
  longest [basedNumber "xX" isHexDigit, basedNumber "oO" (fun c => '0' ≤ c && c ≤ '7'),
    basedNumber "bB" (fun c => c == '0' || c == '1')]

/-- The integral part of a number with a fraction or an exponent. -/
def integralPart : Lexeme :=
  longest [text "0",
    ((text "0").opt.seq (char fun c => '1' ≤ c && c ≤ '9')).seq
      ((text "_").opt.seq decimalDigits).opt]

/-- The exponent of a number. -/
def exponentPart : Lexeme :=
  ((char "eE".toList.contains).seq (char "+-".toList.contains).opt).seq decimalDigits

/-- A number. -/
def number : Lexeme :=
  longest [
    basedInteger,
    ((integralPart.seq (text ".")).seq decimalDigits.opt).seq exponentPart.opt,
    ((text ".").seq decimalDigits).seq exponentPart.opt,
    integralPart.seq exponentPart,
    decimalDigits,
    (longest [basedInteger, decimalDigits]).seq (text "n")]

/-! ### Strings and regular expressions -/

/-- An escaped character of a string or a template. -/
def escapeSequence : Lexeme :=
  (text "\\").seq (longest [
    char fun c => c != 'x' && c != 'u' && !('0' ≤ c && c ≤ '7'),
    (char fun c => '0' ≤ c && c ≤ '7').atMost 3,
    (text "x").seq ((char isHexDigit).times 2),
    (text "u").seq ((char isHexDigit).times 4),
    ((text "u\x7b").seq (char isHexDigit).many1).seq (text "\x7d"),
    (char fun c => c == '\r' || c == '?').seq (char isLineBreak)])

/-- A string between the given quotes. -/
def quotedBy (quote : Char) : Lexeme :=
  ((char (· == quote)).seq
    (longest [
      char fun c => c != quote && c != '\\' && c != '\r' && c != '\n',
      escapeSequence]).many).seq (char (· == quote))

/-- A string. -/
def string : Lexeme := longest [quotedBy '"', quotedBy '\'']

/-- A character of a regular expression after a backslash. -/
def regexEscape : Lexeme := (text "\\").seq (char (· != '\n'))

/-- A class of characters in a regular expression. -/
def regexClass : Lexeme :=
  ((text "[").seq
    (longest [regexEscape, char fun c => c != ']' && c != '\n' && c != '\\']).many).seq (text "]")

/-- The pattern of a regular expression. -/
def regexPattern : Lexeme :=
  (longest [regexClass, regexEscape,
    char fun c => c != '/' && c != '\\' && c != '[' && c != '\n']).many1

/-- The flags of a regular expression. -/
def regexFlags : Lexeme := (char fun c => 'a' ≤ c && c ≤ 'z').many

/-- A character of the text of a template. -/
def templateChar : Lexeme
  | '$' :: '\x7b' :: _ => none
  | c :: _ => if c == '`' || c == '\\' then none else some 1
  | [] => none

/-- The text of a template up to a substitution or its end. -/
def templateText : Lexeme := (longest [templateChar, escapeSequence]).many

/-! ### Elements -/

/-- A reference to a character by name or number. -/
def characterReference : Lexeme :=
  ((text "&").seq (longest [
    ((text "#").seq (char "xX".toList.contains)).seq ((char isHexDigit).atMost 6),
    (text "#").seq ((char Char.isDigit).atMost 5),
    (char isPlainLetter).atMost 30])).seq (text ";")

/-- A name with hyphens in it. -/
def hyphenatedName : Lexeme :=
  (((char fun c => isPlainLetter c || c == '_' || c == '$').seq
    (char fun c => isPlainLetter c || c.isDigit || c == '_' || c == '$').many).seq (text "-")).seq
    (char fun c => isPlainLetter c || c.isDigit || c == '_' || c == '$' || c == '-').many

/-- The name of an element or an attribute. -/
def elementName : Lexeme := longest [name, hyphenatedName]

/-- Text between elements, of any kind. -/
def elementText : Lexeme := (char fun c => !"<>\x7b\x7d&".toList.contains c).many

/-- The value of an attribute between the given quotes. -/
def attributeQuotedBy (quote : Char) : Lexeme :=
  ((char (· == quote)).seq
    (longest [
      char fun c => c != quote && c != '&',
      (text "&").seq (char fun c => c != '#' && !isPlainLetter c),
      characterReference]).many).seq (char (· == quote))

/-- The value of an attribute as a string. -/
def attributeString : Lexeme := longest [attributeQuotedBy '"', attributeQuotedBy '\'']

/-! ### Punctuation -/

/-- The punctuation, longer texts before their beginnings. -/
def punctuators : List String := [
  ">>>=", "...", "===", "!==", "**=", "<<=", ">>=", ">>>", "&&=", "||=", "??=",
  "=>", "==", "!=", "<=", ">=", "&&", "||", "??", "?.", "++", "--", "+=", "-=", "*=", "/=", "%=",
  "&=", "|=", "^=", "<<", ">>", "**",
  "\x7b", "\x7d", "(", ")", "[", "]", ";", ",", "<", ">", "+", "-", "*", "/", "%", "&", "|", "^",
  "!", "~", "?", ":", "=", ".", "@"]

/-- The punctuation with its characters. -/
def punctuatorTexts : List (String × List Char) := punctuators.map fun s => (s, s.toList)

/-- The punctuation that an input starts with. A `?.` before a digit is a `?`. -/
def punctuator? (input : List Char) : Option String :=
  match input with
  | '?' :: '.' :: c :: _ => if c.isDigit then some "?" else some "?."
  | _ => (punctuatorTexts.find? fun entry => entry.2.isPrefixOf input).map Prod.fst

end ScriptForms.Source
