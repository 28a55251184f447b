import ScriptForms.Source.Grammar

/-!
# Functions
-/

namespace ScriptForms.Source

/-- The word in front of an asynchronous function. -/
def asyncMark (ends : Bool) : Parser Tree := do
  let word ← keywordMark "async"
  gap ends
  return word

/-- A function as an expression, with or without a name. -/
def functionExpression (g : Grammar) (ends : Bool) : Parser Tree := do
  let start ← place
  let async ← (asyncMark ends).option
  keyword "function"
  let star ← (symbol "*").option
  let name ← (under "name" identifier).option
  let params ← under "parameters" (parameters g)
  let body ← under "body" (block g false)
  nodeFrom start (if star.isSome then "generator_function" else "function_expression")
    (async.toList ++ name.toList ++ [params, body])

/-- A function as a declaration. -/
def functionDeclaration (g : Grammar) : Parser Tree := do
  let start ← place
  let async ← (asyncMark true).option
  keyword "function"
  let star ← (symbol "*").option
  let name ← under "name" identifier
  let params ← under "parameters" (parameters g)
  let body ← under "body" (block g true)
  trailingSemicolon true
  nodeFrom start
    (if star.isSome then "generator_function_declaration" else "function_declaration")
    (async.toList ++ [name, params, body])

/-- The body of an arrow function: a block or an expression. -/
def arrowBody (g : Grammar) (ends : Bool) : Parser Tree := do
  let cursor ← start
  if cursor.rest.head? = some '\x7b' then braced (block g false) (g.expression ends)
  else g.expression ends

/-- The arrow of an arrow function. -/
def arrow (ends : Bool) : Parser Unit := gap ends *> symbol "=>"

/-- The parts of an arrow function with its parameters in parentheses. -/
def arrowParts (g : Grammar) (ends : Bool) : Parser (List Tree) := do
  let params ← under "parameters" (parameters g)
  arrow ends
  return [params, ← under "body" (arrowBody g ends)]

/-- The parts of an arrow function with a single name as its parameter. -/
def nameArrowParts (g : Grammar) (ends : Bool) : Parser (List Tree) := do
  let name ← under "parameter" identifier
  arrow ends
  return [name, ← under "body" (arrowBody g ends)]

/-- An arrow function with its parameters in parentheses. -/
def arrowFunction (g : Grammar) (ends : Bool) : Parser Tree :=
  construct "arrow_function" (arrowParts g ends)

/-- An arrow function with a single name as its parameter. -/
def nameArrowFunction (g : Grammar) (ends : Bool) : Parser Tree :=
  construct "arrow_function" (nameArrowParts g ends)

/-- An asynchronous arrow function. -/
def asyncArrowFunction (g : Grammar) (ends : Bool) : Parser Tree :=
  construct "arrow_function" do
    let word ← asyncMark ends
    return word :: (← nameArrowParts g ends <|> arrowParts g ends)

end ScriptForms.Source
