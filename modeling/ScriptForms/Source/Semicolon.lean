import ScriptForms.Source.Lexeme

/-!
# Semicolons left out

A semicolon may be left out at the end of the input, before a closing brace, and at a line break
unless the next token goes on with the statement. The rule looks at the blanks and comments behind
the last token and at the first characters after them.

* `isInserted`: whether a semicolon is inserted in front of a text.
-/

namespace ScriptForms.Source

/-- What stands behind blanks and comments. -/
inductive Beyond where
  /-- A slash that starts no comment. -/
  | slash
  /-- The rest; a line may have been broken on the way. -/
  | broken (rest : List Char)
  /-- The rest directly behind a block comment on one line. -/
  | unbroken (rest : List Char)

/-- The rest of an input after a block comment, and whether the comment holds a line break. -/
def afterBlockComment : List Char → Option (Bool × List Char)
  | '*' :: '/' :: rest => some (false, rest)
  | c :: rest => (afterBlockComment rest).map fun (broken, after) => (broken || isLineBreak c, after)
  | [] => none

/-- Skips blanks and comments, no more comments than there are items of `bound`. Unless `all` are
skipped, it stops behind a block comment that no slash follows. -/
def beyondWithin (all : Bool) : (bound : List Char) → (broken : Bool) → List Char → Beyond
  | [], _, rest => .broken rest
  | _ :: bound, broken, input =>
    match input.dropWhile isPlainSpace with
    | '/' :: '/' :: rest => beyondWithin all bound broken (rest.dropWhile (!isLineBreak ·))
    | '/' :: '*' :: rest =>
      match afterBlockComment rest with
      | none => .broken []
      | some (inside, after) =>
        if all || after.head? = some '/' then beyondWithin all bound (broken || inside) after
        else if broken || inside then .broken after
        else .unbroken after
    | '/' :: _ => .slash
    | rest => .broken rest

/-- Skips blanks and comments. -/
def beyond (all : Bool) (input : List Char) : Beyond := beyondWithin all input false input

/-- Whether a text after a line break starts a new statement. -/
def startsStatement : List Char → Bool
  | [] => true
  | '.' :: rest => rest.head?.any Char.isDigit
  | '+' :: rest => rest.head? = some '+'
  | '-' :: rest => rest.head? = some '-'
  | '!' :: rest => rest.head? ≠ some '='
  | 'i' :: 'n' :: rest =>
    let word := rest.takeWhile isPlainLetter
    !(word = [] || word = "stanceof".toList)
  | c :: _ => !"`,:;*%><=[(?^|&/".toList.contains c

/-- Whether a semicolon is inserted behind a line break. -/
def isInsertedAfterBreak (rest : List Char) : Bool :=
  match beyond true rest with
  | .slash => false
  | .broken rest | .unbroken rest => startsStatement rest

/-- What a comment at the front of a text decides about a semicolon before it, or the rest behind
the comment if it decides nothing. -/
def pastComment (clear : Bool) (input : List Char) : Except Bool (List Char) :=
  match input with
  | '/' :: _ =>
    match beyond false input with
    | .slash => .error false
    | .broken rest =>
      if clear && rest.head? ≠ some ',' && rest.head? ≠ some '=' then .error true else .ok rest
    | .unbroken rest => .ok rest
  | _ => .ok input

/-- Whether a semicolon is inserted in front of a text, over no more blanks than there are items of
`bound`. -/
def isInsertedWithin (clear : Bool) : (bound : List Char) → List Char → Bool
  | _, [] => true
  | [], _ => false
  | _ :: bound, input =>
    match pastComment clear input with
    | .error decision => decision
    | .ok [] => false
    | .ok (c :: rest) =>
      if c = '\x7d' then true
      else if isLineBreak c then isInsertedAfterBreak rest
      else isPlainSpace c && isInsertedWithin clear bound rest

/-- Whether a semicolon is inserted in front of a text. With `clear` no operator can follow, so that
a comment with a line break is enough. -/
def isInserted (clear : Bool) (input : List Char) : Bool := isInsertedWithin clear input input

end ScriptForms.Source
