import ScriptForms.Source.Grammar

/-!
# Patterns

A pattern takes an array or an object apart. Patterns are read in full; their trees have no nodes
below them.
-/

namespace ScriptForms.Source

/-- The default of a part of a pattern. -/
def patternDefault (g : Grammar) : Parser Unit := discard (symbol "=" *> g.expression false)

/-- A part of a pattern with a default that may be left out. -/
def patternPart (g : Grammar) : Parser Unit := g.pattern *> discard (patternDefault g).option

/-- An array pattern. Any part may be left out. -/
def arrayPattern (g : Grammar) : Parser Tree :=
  leaf "array_pattern" do
    symbol "["
    discard ((patternPart g).sparse (symbol ","))
    symbol "]"

/-- What is assigned by three dots in a pattern. -/
def restPattern (g : Grammar) : Parser Tree :=
  construct "rest_pattern" do
    symbol "..."
    (symbol "...").notAhead
    return [← g.pattern]

/-- A part of an object pattern: a key with a pattern, the rest, or a name or pattern with or
without a default. -/
def objectPatternPart (g : Grammar) : Parser Unit :=
  discard (restPattern g) <|>
  (do discard (propertyKey g); symbol ":"; patternPart g) <|>
  (do discard word; discard (patternDefault g).option) <|>
  (do
    (symbol "[" <|> symbol "\x7b").ahead
    discard g.pattern
    patternDefault g)

/-- An object pattern. Any part may be left out. -/
def objectPattern (g : Grammar) : Parser Tree :=
  leaf "object_pattern" do
    symbol "\x7b"
    discard ((objectPatternPart g).sparse (symbol ","))
    symbol "\x7d"

/-- A pattern that takes an array or an object apart. -/
def destructuring (g : Grammar) : Parser Tree := arrayPattern g <|> objectPattern g

/-- A name or an access that starts with a word, as a target. -/
def simpleTarget (g : Grammar) : Parser Tree := do
  word.ahead
  let operand ← g.chain false
  guard (operand.shape = .name ∨ operand.shape = .undefined ∨ operand.shape = .access)
  return operand.tree

/-- What a parameter or a part of a pattern binds or assigns. -/
def patternRule (g : Grammar) : Parser Tree :=
  restPattern g <|> destructuring g <|> simpleTarget g

/-- What a declaration binds: a name or a pattern. Every word is a name here. -/
def bindingTarget (g : Grammar) : Parser Tree := identifier <|> destructuring g

end ScriptForms.Source
