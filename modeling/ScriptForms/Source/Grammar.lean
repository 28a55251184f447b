import ScriptForms.Source.Operator

/-!
# Constructs shared by the grammar

The constructs that contain each other are the fields of a `Grammar`. Every rule takes the grammar
of what lies deeper as an argument, so that each rule is a plain function; the rules are tied
together at the end, by the depth of nesting.

A flag `ends` says that a semicolon may be left out behind the construct, which is so in a statement
and not between brackets.

* `sequence`, `group`, `arguments`, `block`: expressions with commas, in parentheses, as arguments,
  and statements in braces.
* `parameters`, `propertyKey`: the parameters of a function and the key of a member.
* `braces`: what an opening brace can start where a statement can start.
-/

namespace ScriptForms.Source

/-- The constructs that contain each other. -/
structure Grammar where
  /-- An expression without commas. -/
  expression : (ends : Bool) → Parser Tree
  /-- An operand of a binary operator. -/
  operand : (ends : Bool) → Parser Operand
  /-- A primary expression with the accesses and calls behind it. -/
  chain : (ends : Bool) → Parser Operand
  /-- A statement. Where a clause can start (`inClauses`), the words that start one are no names. -/
  statement : (inClauses : Bool) → Parser Tree
  /-- What a parameter or a part of a pattern binds or assigns. -/
  pattern : Parser Tree
  /-- An element. -/
  element : Parser Tree
  /-- A construction. -/
  construction : (ends : Bool) → Parser Tree

/-! ### Words -/

/-- The words that start a statement and nothing else. -/
def statementWords : List String := [
  "var", "const", "if", "switch", "for", "while", "do", "try", "with", "break", "continue",
  "debugger", "return", "throw", "import", "function", "class"]

/-- The words that start an expression and are no names there. -/
def expressionWords : List String := [
  "function", "class", "new", "this", "super", "true", "false", "null", "undefined", "typeof",
  "void", "delete", "await", "yield", "import"]

/-! ### Expressions -/

/-- An expression after three dots. -/
def spread (g : Grammar) : Parser Tree :=
  construct "spread_element" do
    symbol "..."
    return [← g.expression false]

/-- Expressions with commas between them. -/
def sequence (g : Grammar) (ends : Bool) : Parser Tree := do
  let start ← place
  let first ← g.expression ends
  let others ← Parser.many (do gap ends; symbol ","; g.expression ends)
  if others.isEmpty then return first else nodeFrom start "sequence_expression" (first :: others)

/-- Expressions in parentheses. -/
def group (g : Grammar) : Parser Tree :=
  construct "parenthesized_expression" do
    symbol "("
    let tree ← sequence g false
    symbol ")"
    return [tree]

/-- The arguments of a call, behind the opening parenthesis. Any of them may be left out. -/
def argumentsRest (g : Grammar) : Parser (List Tree) := do
  let trees ← (spread g <|> g.expression false).sparse (symbol ",")
  symbol ")"
  return trees

/-- The arguments of a call. -/
def arguments (g : Grammar) : Parser Tree := construct "arguments" (symbol "(" *> argumentsRest g)

/-- A string. -/
def stringLiteral : Parser Tree := leaf "string" (token string)

/-- A number. -/
def numericLiteral : Parser Tree := leaf "number" (token number)

/-- A name that belongs to the members of one class. -/
def privateIdentifier : Parser Tree := leaf "private_property_identifier" (token privateName)

/-! ### Blocks and functions -/

/-- Statements in braces. A semicolon that is left out behind a block belongs to the block. -/
def block (g : Grammar) (clear : Bool) : Parser Tree :=
  construct "statement_block" do
    symbol "\x7b"
    let body ← Parser.many (g.statement false)
    symbol "\x7d"
    trailingSemicolon clear
    return body

/-- A parameter: a name or a pattern, with or without a default. A call is no parameter. -/
def parameter (g : Grammar) : Parser Tree := do
  let cursor ← start
  guard (cursor.rest.head?.any fun c => isNameStart c || "\\[\x7b.".toList.contains c)
  (word *> symbol "(").notAhead
  let target ← g.pattern
  match ← Parser.option (symbol "=" *> g.expression false) with
  | some value => nodeFrom cursor.offset "assignment_pattern" [target, value]
  | none => return target

/-- The parameters of a function. -/
def parameters (g : Grammar) : Parser Tree :=
  construct "formal_parameters" do
    symbol "("
    let trees ← (parameter g).separated (symbol ",")
    if !trees.isEmpty then discard (symbol ",").option
    symbol ")"
    return trees

/-- The key of a member. -/
def propertyKey (g : Grammar) : Parser Tree :=
  leaf "property_identifier" word <|>
  stringLiteral <|>
  numericLiteral <|>
  privateIdentifier <|>
  construct "computed_property_name" do
    symbol "["
    let key ← g.expression false
    symbol "]"
    return [key]

/-- A decorator. -/
def decorator (g : Grammar) : Parser Unit := do
  symbol "@"
  discard (word.separated1 (symbol "."))
  discard (arguments g).option

/-- Decorators. -/
def decorators (g : Grammar) : Parser Unit := discard (Parser.many (decorator g))

/-- Reads a word that may be left out, and the rest with or without it. The word is also a name, so
both readings are tried. -/
def modified {α : Type} (s : String) (p : List Tree → Parser α) : Parser α :=
  (do p [← keywordMark s]) <|> p []

/-- The key, the parameters and the body of a method, behind the words before the key. -/
def methodRest (g : Grammar) (words : List Tree) : Parser (List Tree) := do
  let key ← under "name" (propertyKey g)
  let params ← under "parameters" (parameters g)
  let body ← under "body" (block g true)
  return words ++ [key, params, body]

/-- A method. -/
def method (g : Grammar) : Parser Tree :=
  construct "method_definition" do
    decorators g
    modified "static" fun static =>
      modified "async" fun async => do
        let words := static ++ async
        (do methodRest g (words ++ [← keywordMark "get"])) <|>
          (do methodRest g (words ++ [← keywordMark "set"])) <|>
          (do methodRest g (words ++ [← mark (symbol "*" *> pure "*")])) <|>
          methodRest g words

/-! ### Opening braces -/

/-- How an opening brace is read where both a block and an object can stand. -/
inductive Braces where
  | blockOnly
  | blockFirst
  | objectFirst

/-- How the opening brace ahead is read. A name before a colon is the key of an object if the rest
can be read so. -/
def braces : Parser Braces := do
  symbol "\x7b"
  (symbol "\x7d" *> pure .blockOnly) <|>
  (do
    let first ← word
    if statementWords.contains first || expressionWords.contains first then return .blockOnly
    (symbol ":" *> pure .objectFirst) <|> (symbol "," *> pure .blockOnly) <|> pure .blockFirst) <|>
  pure .blockFirst

/-- What an opening brace starts: a block or an object, in the order of `braces`. -/
def braced {α : Type} (asBlock asObject : Parser α) : Parser α := do
  let cursor ← get
  match braces.run cursor with
  | none => failure
  | some (.blockOnly, _) => asBlock
  | some (.blockFirst, _) => asBlock <|> asObject
  | some (.objectFirst, _) => asObject <|> asBlock

end ScriptForms.Source
