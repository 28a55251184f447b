import ScriptForms.Source.Pattern

/-!
# Literals

Regular expressions, templates, arrays and objects.
-/

namespace ScriptForms.Source

/-- A regular expression. -/
def regexLiteral : Parser Tree :=
  construct "regex" do
    discard (token (.text "/"))
    let pattern ← under "pattern" (leafHere "regex_pattern" regexPattern)
    discard (exactly (.text "/"))
    let flags ← under "flags" (leafHere "regex_flags" regexFlags)
    return [pattern, flags]

/-- The text of a template up to a substitution or the end. -/
def templateChunk : Parser Unit := discard (exactly templateText)

/-- A substitution of a template. -/
def substitution (g : Grammar) : Parser Tree := do
  let cursor ← get
  discard (exactly (.text "$\x7b"))
  let tree ← sequence g false
  char '\x7d'
  nodeFrom cursor.offset "template_substitution" [tree]

/-- A template. -/
def templateLiteral (g : Grammar) : Parser Tree :=
  construct "template_string" do
    char '`'
    templateChunk
    let substitutions ← Parser.many (substitution g <* templateChunk)
    discard (exactly (.text "`"))
    return substitutions

/-- An array. Any element may be left out. -/
def arrayLiteral (g : Grammar) : Parser Tree :=
  construct "array" do
    symbol "["
    let elements ← (spread g <|> g.expression false).sparse (symbol ",")
    symbol "]"
    return elements

/-- A key and a value. -/
def pair (g : Grammar) : Parser Tree :=
  construct "pair" do
    let key ← under "key" (propertyKey g)
    symbol ":"
    return [key, ← under "value" (g.expression false)]

/-- A name that is both key and value. -/
def shorthand : Parser Tree := leaf "shorthand_property_identifier" word

/-- An object. Any member may be left out. -/
def objectLiteral (g : Grammar) : Parser Tree :=
  construct "object" do
    symbol "\x7b"
    let members ← (spread g <|> pair g <|> method g <|> shorthand).sparse (symbol ",")
    symbol "\x7d"
    return members

end ScriptForms.Source
