import ScriptForms.Source.Element
import ScriptForms.Source.Expression
import ScriptForms.Source.Module

/-!
# Statements

Loops, labels and a few other statements are read in full; their trees have no nodes below them.
-/

namespace ScriptForms.Source

/-! ### Expressions and conditions -/

/-- An expression as a statement. -/
def expressionStatement (g : Grammar) : Parser Tree :=
  construct "expression_statement" do
    let tree ← sequence g true
    semicolon false
    return [tree]

/-- The other branch of an `if` statement, behind its keyword. -/
def elseClause (g : Grammar) : Parser Tree :=
  construct "else_clause" do
    keyword "else"
    return [← g.statement false]

/-- What the given keyword starts, if that keyword is ahead. -/
def following (s : String) (p : Parser Tree) : Parser (List Tree) := do
  if ← (keyword s).test then return [← p] else return []

/-- An `if` statement. -/
def ifStatement (g : Grammar) : Parser Tree :=
  construct "if_statement" do
    keyword "if"
    let test ← under "condition" (group g)
    let consequent ← under "consequence" (g.statement false)
    let alternate ← following "else" (under "alternative" (elseClause g))
    return [test, consequent] ++ alternate

/-- The statements of a clause of a `switch`, behind its colon. -/
def clauseBody (g : Grammar) : Parser (List Tree) := do
  symbol ":"
  Parser.many (under "body" (g.statement true))

/-- A clause of a `switch`. -/
def switchClause (g : Grammar) : Parser Tree :=
  (construct "switch_case" do
    keyword "case"
    let test ← under "value" (sequence g false)
    return test :: (← clauseBody g)) <|>
  (construct "switch_default" do
    keyword "default"
    clauseBody g)

/-- The clauses of a `switch`, in braces. -/
def switchBody (g : Grammar) : Parser Tree :=
  construct "switch_body" do
    symbol "\x7b"
    let clauses ← Parser.many (switchClause g)
    symbol "\x7d"
    return clauses

/-- A `switch` statement. -/
def switchStatement (g : Grammar) : Parser Tree :=
  construct "switch_statement" do
    keyword "switch"
    let discriminant ← under "value" (group g)
    return [discriminant, ← under "body" (switchBody g)]

/-- The handler of a `try` statement. -/
def catchClause (g : Grammar) : Parser Tree :=
  construct "catch_clause" do
    keyword "catch"
    let param ← (symbol "(" *> under "parameter" (bindingTarget g) <* symbol ")").option
    return param.toList ++ [← under "body" (block g true)]

/-- The final block of a `try` statement. -/
def finallyClause (g : Grammar) : Parser Tree :=
  construct "finally_clause" do
    keyword "finally"
    return [← under "body" (block g true)]

/-- A `try` statement. Both the handler and the final block may be left out. -/
def tryStatement (g : Grammar) : Parser Tree :=
  construct "try_statement" do
    keyword "try"
    let body ← under "body" (block g true)
    let handler ← following "catch" (under "handler" (catchClause g))
    let finalizer ← following "finally" (under "finalizer" (finallyClause g))
    return body :: (handler ++ finalizer)

/-! ### Jumps -/

/-- A `return` statement. -/
def returnStatement (g : Grammar) : Parser Tree :=
  construct "return_statement" do
    keyword "return"
    let argument ← Parser.option (goOn true *> sequence g true)
    semicolon argument.isNone
    return argument.toList

/-- A `throw` statement. -/
def throwStatement (g : Grammar) : Parser Tree :=
  construct "throw_statement" do
    keyword "throw"
    let argument ← sequence g true
    semicolon false
    return [argument]

/-- A label behind a jump. -/
def jumpLabel : Parser Tree := do
  goOn true
  under "label" (leaf "statement_identifier" word)

/-- A `break` or `continue` statement. -/
def jumpStatement (word : String) : Parser Tree :=
  construct (word ++ "_statement") do
    keyword word
    let label ← jumpLabel.option
    semicolon true
    return label.toList

/-- A `debugger` statement. -/
def debuggerStatement : Parser Tree :=
  leaf "debugger_statement" do
    keyword "debugger"
    semicolon true

/-! ### Loops -/

/-- The three parts of a counting loop, behind the opening parenthesis. -/
def forParts (g : Grammar) : Parser Unit := do
  discard (declaration g) <|> (sequence g false *> symbol ";") <|> symbol ";"
  (sequence g false *> symbol ";") <|> symbol ";"
  discard (sequence g false).option
  symbol ")"

/-- What the loop over a collection binds or assigns. -/
def forTarget (g : Grammar) : Parser Unit :=
  (do
    keyword "var"
    discard (bindingTarget g)
    discard (symbol "=" *> g.expression false).option) <|>
  (do
    keyword "let" <|> keyword "const"
    discard (bindingTarget g)) <|>
  discard (destructuring g) <|>
  (do
    let operand ← g.chain false
    guard (assignable "=" operand.shape))

/-- Whether a tree is an `in` operation. -/
def isMembership (tree : Tree) : Bool :=
  tree.kind == "binary_expression" && (tree.child? "operator").any (·.kind == "in")

/-- The binding and the collection of a loop, behind the opening parenthesis. An initial value
before `in` looks like the left operand of an `in` operation. -/
def forInParts (g : Grammar) : Parser Unit :=
  (do
    forTarget g
    keyword "in" <|> keyword "of"
    discard (sequence g false)
    symbol ")") <|>
  (do
    keyword "var"
    discard (bindingTarget g)
    symbol "="
    guard (isMembership (← g.expression false))
    symbol ")")

/-- A `for` statement of either kind. -/
def forStatement (g : Grammar) : Parser Tree := do
  let start ← place
  keyword "for"
  let kind ←
    (symbol "(" *> forParts g *> pure "for_statement") <|>
    ((keyword "await").option *> symbol "(" *> forInParts g *> pure "for_in_statement")
  discard (g.statement false)
  nodeFrom start kind []

/-- A `while` statement. -/
def whileStatement (g : Grammar) : Parser Tree :=
  leaf "while_statement" do
    keyword "while"
    discard (group g)
    discard (g.statement false)

/-- A `do` statement. -/
def doStatement (g : Grammar) : Parser Tree :=
  leaf "do_statement" do
    keyword "do"
    discard (g.statement false)
    keyword "while"
    discard (group g)
    semicolon true <|> Parser.bar

/-- A `with` statement. -/
def withStatement (g : Grammar) : Parser Tree :=
  leaf "with_statement" do
    keyword "with"
    discard (group g)
    discard (g.statement false)

/-- A statement with a label. -/
def labeledStatement (g : Grammar) : Parser Tree :=
  leaf "labeled_statement" do
    discard word
    symbol ":"
    discard (g.statement false)

/-! ### All statements -/

/-- Whether an input goes on with an expression: it starts with an operator that no statement starts
with. -/
def continuesExpression : List Char → Bool
  | '.' :: c :: _ => !c.isDigit
  | c :: _ => ".,*%=>?^|&".toList.contains c
  | [] => false

/-- A declaration of a function or a class whose first words are ahead (`named`), unless it is the
start of an expression. -/
def declarationOrExpression (g : Grammar) (named : Parser Unit) (asDeclaration : Parser Tree) :
    Parser Tree := do
  let cursor ← start
  if ← named.test then
    let tree ← asDeclaration
    let stop ← get
    if continuesExpression (← start).rest then
      set cursor
      expressionStatement g
    else
      set stop
      return tree
  else expressionStatement g

/-- The first words of a declaration of a function. -/
def functionWords : Parser Unit := do
  discard (keyword "async" *> gap true).option
  keyword "function"
  discard (symbol "*").option
  discard word

/-- The first words of a declaration of a class. -/
def classWords (g : Grammar) : Parser Unit := do
  decorators g
  keyword "class"
  className

/-- A declaration of a function, or an expression that starts with a function. -/
def functionStatement (g : Grammar) : Parser Tree :=
  declarationOrExpression g functionWords (functionDeclaration g)

/-- A declaration of a class, or an expression that starts with a class. -/
def classStatement (g : Grammar) : Parser Tree :=
  declarationOrExpression g (classWords g) (classDeclaration g)

/-- A statement that starts with a name. -/
def nameStatement (g : Grammar) : Parser Tree := do
  if ← (word *> symbol ":").test then labeledStatement g else expressionStatement g

/-- A statement that starts with a word. -/
def wordStatement (g : Grammar) (inClauses : Bool) : Parser Tree := do
  let cursor ← start
  let first ← word
  set cursor
  match first with
  | "var" | "const" => declaration g
  | "let" => declaration g <|> nameStatement g
  | "if" => ifStatement g
  | "switch" => switchStatement g
  | "for" => forStatement g
  | "while" => whileStatement g
  | "do" => doStatement g
  | "try" => tryStatement g
  | "with" => withStatement g
  | "break" | "continue" => jumpStatement first
  | "debugger" => debuggerStatement
  | "return" => returnStatement g
  | "throw" => throwStatement g
  | "function" => functionStatement g
  | "class" => classStatement g
  | "async" => if ← functionWords.test then functionStatement g else nameStatement g
  | "import" =>
    if ← (keyword "import" *> (symbol "(" <|> symbol ".")).test then expressionStatement g
    else importDeclaration g
  | "export" => exportDeclaration g <|> nameStatement g
  | _ =>
    if inClauses && (first = "case" || first = "default") then failure
    else if expressionWords.contains first then expressionStatement g
    else nameStatement g

/-- A statement. -/
def statementRule (g : Grammar) (inClauses : Bool) : Parser Tree := do
  let cursor ← start
  match cursor.rest with
  | [] => failure
  | ';' :: _ => leaf "empty_statement" (symbol ";")
  | '\x7b' :: _ => braced (block g true) (expressionStatement g)
  | '@' :: _ => exportDeclaration g <|> classStatement g
  | c :: _ =>
    if isNameStart c || c == '\\' then wordStatement g inClauses else expressionStatement g

end ScriptForms.Source
