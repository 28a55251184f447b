import ScriptForms.Form.Basic
import ScriptForms.Json.Basic

/-!
# Forms as text

The text of a form follows its structure. A list is followed by a blank line, so that the lists of
a program stand apart; items are separated by one space; markers leave no trace. A program may
stand only at the root.
-/

namespace ScriptForms

/-- Why a form has no text. -/
inductive PrintError where
  /-- A program below the root. -/
  | nestedProgram
  deriving DecidableEq, Inhabited

/-- The wording of a `PrintError`. -/
def PrintError.message : PrintError → String
  | .nestedProgram => "program form can only appear at the root"

namespace Form

/-- The flags of a regular expression that its own text can carry. -/
def isKeptFlag (c : Char) : Bool := c = 'i' || c = 'm' || c = 'u'

/-- A pattern with its bare double quotes escaped; `escaped` says whether a backslash escapes the
next character. -/
def escapeQuotes (escaped : Bool) : List Char → List Char
  | [] => []
  | c :: rest =>
    let tail := c :: escapeQuotes (c = '\\' && !escaped) rest
    if c = '"' && !escaped then '\\' :: tail else tail

/-- A regular expression literal, its flags as a group at the front. -/
def regexText (pattern flags : List Char) : List Char :=
  let kept := flags.filter isKeptFlag
  let group := if kept.isEmpty then [] else ['(', '?'] ++ kept ++ [')']
  ['#', '"'] ++ group ++ escapeQuotes false pattern ++ ['"']

/-- Texts separated by one space. -/
def spaced (texts : List (List Char)) : List Char := [' '].intercalate texts

mutual

/-- The text of a form below the root, `none` for a marker. -/
def emit : Form → Except PrintError (Option (List Char))
  | .program _ => .error .nestedProgram
  | .empty | .leave => .ok none
  | .symbol name => .ok (some name.toList)
  | .keyword value => .ok (some (':' :: value.toList))
  | .number raw => .ok (some raw.toList)
  | .string value => .ok (some (Json.quote value.toList))
  | .boolean value => .ok (some (if value then "true" else "false").toList)
  | .regex pattern flags => .ok (some (regexText pattern.toList flags.toList))
  | .list children => do
    let texts ← emitAll children
    return some ('(' :: spaced texts ++ [')', '\n', '\n'])
  | .vector children => do
    let texts ← emitAll children
    return some ('[' :: spaced texts ++ [']'])
  | .hashMap children => do
    let texts ← emitAll children
    return some ('\x7b' :: spaced texts ++ ['\x7d'])
  | .mapEntry key value => do
    let key ← emit key
    let value ← emit value
    return some (spaced (key.toList ++ value.toList))
  | .tagged tag form => do
    match ← emit form with
    | some text => return some (tag.toList ++ ' ' :: text)
    | none => return some tag.toList
  | .comment text => .ok (some ([';', ';', ' '] ++ text.toList ++ ['\n']))

/-- The texts of the forms that are no markers. -/
def emitAll : List Form → Except PrintError (List (List Char))
  | [] => .ok []
  | form :: forms => do
    let text ← emit form
    let texts ← emitAll forms
    return text.toList ++ texts

end

/-- A form of a program, followed by a blank line unless its text ends its line. -/
def paragraph (text : List Char) : List Char :=
  if text.getLast? = some '\n' then text else text ++ ['\n', '\n']

/-- The characters of a form at the root. -/
def rawText : Form → Except PrintError (List Char)
  | .program children => do
    let texts ← emitAll children
    return texts.flatMap paragraph
  | form => do
    let text ← emit form
    return text.getD []

/-- The text of a form at the root. -/
def print (form : Form) : Except PrintError String := String.ofList <$> form.rawText

end Form

end ScriptForms
