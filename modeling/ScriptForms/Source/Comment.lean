import ScriptForms.Text.Blank

/-!
# Comments

* `commentLines`: the lines of a comment without its marks.
-/

namespace ScriptForms.Source

/-- A line of a block comment without the star and the blanks around it. -/
def commentLine (line : List Char) : List Char :=
  match Text.trim line with
  | '*' :: rest => Text.trim rest
  | rest => rest

/-- A text without the mark that ends a block comment. -/
def stripBlockEnd (text : List Char) : List Char :=
  if ['*', '/'].isSuffixOf text then text.dropLast.dropLast else text

/-- The characters of a block comment between its marks. -/
def blockCommentBody : List Char → List Char
  | '/' :: '*' :: rest => stripBlockEnd rest
  | text => stripBlockEnd text

/-- The lines of a comment without its marks. Empty lines of a block comment are left out. -/
def commentLines : List Char → List String
  | '/' :: '/' :: rest => [String.ofList (Text.trim rest)]
  | text =>
    (((Text.splitLines (blockCommentBody text)).map commentLine).filter (!·.isEmpty)).map
      String.ofList

end ScriptForms.Source
