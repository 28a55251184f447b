import ScriptForms.Source.Grammar

/-!
# Classes

A class is read in full; its tree has no nodes below it.
-/

namespace ScriptForms.Source

/-- A field of a class. -/
def classField (g : Grammar) : Parser Unit := do
  decorators g
  modified "static" fun _ => do
    discard (propertyKey g)
    let value ← Parser.option (do gap true; symbol "="; g.expression true)
    semicolon value.isNone

/-- A member of a class. -/
def classMember (g : Grammar) : Parser Unit :=
  symbol ";" <|>
  (do keyword "static"; discard (block g true)) <|>
  discard (method g) <|>
  classField g

/-- The members of a class, in braces. -/
def classBody (g : Grammar) : Parser Unit := do
  symbol "\x7b"
  discard (Parser.many (classMember g))
  symbol "\x7d"

/-- The name of a class. -/
def className : Parser Unit := do
  guard ((← word) ≠ "extends")

/-- A class behind its name. -/
def classRest (g : Grammar) : Parser Unit := do
  discard (Parser.option (keyword "extends" *> g.expression false))
  classBody g

/-- A class as an expression. -/
def classExpression (g : Grammar) : Parser Tree :=
  leaf "class" do
    decorators g
    keyword "class"
    discard className.option
    classRest g

/-- A class as a declaration. -/
def classDeclaration (g : Grammar) : Parser Tree :=
  leaf "class_declaration" do
    decorators g
    keyword "class"
    className
    classRest g
    trailingSemicolon true

end ScriptForms.Source
