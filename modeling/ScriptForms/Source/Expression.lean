import ScriptForms.Source.Class
import ScriptForms.Source.Function
import ScriptForms.Source.Literal

/-!
# Expressions

From the inside out: a primary expression, the accesses and calls behind it, unary operators and
assignments, binary operators, and the conditional operator. An assignment or an arrow function can
stand as an operand, and then takes in everything to its right.
-/

namespace ScriptForms.Source

/-! ### Primary expressions -/

/-- An operand of the given shape. An operator can stand behind it. -/
def shaped (shape : Shape) (p : Parser Tree) : Parser Operand := do
  let tree ← p
  Parser.bar
  return ⟨tree, shape⟩

/-- An expression in parentheses, or an arrow function whose parameters look like one. -/
def groupOrArrow (g : Grammar) (ends : Bool) : Parser Operand :=
  shaped .group (group g <* (arrow ends).notAhead) <|>
  shaped .other (arrowFunction g ends)

/-- The keyword `import` where it starts an expression. -/
def importOperand : Parser Operand := do
  let start ← place
  keyword "import"
  (do
    symbol "."
    keyword "meta"
    shaped .other (nodeFrom start "meta_property" [])) <|>
  shaped .other (nodeFrom start "import" [] <* (symbol "(" <|> symbol ".").ahead)

/-- A name, or an arrow function with that name as its parameter. -/
def nameOperand (g : Grammar) (ends : Bool) : Parser Operand := do
  if ← (word *> arrow ends).test then shaped .other (nameArrowFunction g ends)
  else shaped .name identifier

/-- The words that are expressions on their own. -/
def constantWords : List String := ["this", "super", "true", "false", "null"]

/-- A keyword or a name. -/
def wordOperand (g : Grammar) (ends : Bool) : Parser Operand := do
  let cursor ← start
  let first ← word
  if constantWords.contains first then shaped .other (nodeFrom cursor.offset first [])
  else if first = "undefined" then shaped .undefined (nodeFrom cursor.offset first [])
  else
    set cursor
    match first with
    | "function" => shaped .other (functionExpression g ends)
    | "class" => shaped .other (classExpression g)
    | "new" => shaped .other (g.construction ends)
    | "import" => importOperand
    | "async" =>
      shaped .other (functionExpression g ends) <|> shaped .other (asyncArrowFunction g ends) <|>
        nameOperand g ends
    | _ => if expressionWords.contains first then failure else nameOperand g ends

/-- A primary expression. -/
def primary (g : Grammar) (ends : Bool) : Parser Operand := do
  let cursor ← start
  match cursor.rest with
  | '(' :: _ => groupOrArrow g ends
  | '[' :: _ => shaped .literal (arrayLiteral g)
  | '\x7b' :: _ => shaped .literal (objectLiteral g)
  | '`' :: _ => shaped .other (templateLiteral g)
  | '"' :: _ | '\'' :: _ => shaped .other stringLiteral
  | '/' :: _ => shaped .other regexLiteral
  | '<' :: _ => shaped .other g.element
  | '@' :: _ => shaped .other (classExpression g)
  | '#' :: _ => shaped .hidden privateIdentifier
  | c :: _ =>
    if c.isDigit || c == '.' then shaped .other numericLiteral else wordOperand g ends
  | [] => failure

/-! ### Accesses and calls -/

/-- The node of a rule that starts with an operand. -/
def behind (operand : Operand) (shape : Shape) (kind : String) (children : List Tree) :
    Parser Operand :=
  shaped shape (nodeFrom operand.tree.start kind children)

/-- The access to a property, behind its dot; `chain` is the dot of an optional access. -/
def propertyLink (operand : Operand) (chain : List Tree) : Parser Operand := do
  let property ← under "property" (leaf "property_identifier" word <|> privateIdentifier)
  behind operand .access "member_expression" (operand.tree.under "object" :: chain ++ [property])

/-- The access to an element, behind its opening bracket. -/
def elementLink (g : Grammar) (operand : Operand) (chain : List Tree) : Parser Operand := do
  let index ← under "index" (sequence g false)
  symbol "]"
  behind operand .access "subscript_expression" (operand.tree.under "object" :: chain ++ [index])

/-- A call with the given arguments. -/
def callLink (operand : Operand) (chain : List Tree) (arguments : Tree) : Parser Operand :=
  behind operand .other "call_expression"
    (operand.tree.under "function" :: chain ++ [arguments.under "arguments"])

/-- The access or call behind `?.`. -/
def optionalLink (g : Grammar) (operand : Operand) (chain : List Tree) : Parser Operand :=
  (do callLink operand chain (← arguments g)) <|>
  (symbol "[" *> elementLink g operand chain) <|>
  propertyLink operand chain

/-- One access, call or update behind an expression. In the callee of a construction there are only
accesses and templates. -/
def link (g : Grammar) (ends calls : Bool) (operand : Operand) : Parser Operand := do
  guard (operand.shape ≠ .hidden)
  gap ends
  (do callLink operand [] (← templateLiteral g)) <|>
  (do
    let start ← place
    match ← punctuator with
    | "." => propertyLink operand []
    | "?." => optionalLink g operand [← under "optional_chain" (nodeFrom start "optional_chain" [])]
    | "[" => elementLink g operand []
    | "(" => do
      guard calls
      callLink operand [] (← nodeFrom start "arguments" (← argumentsRest g))
    | "++" | "--" => do
      guard calls
      behind operand .other "update_expression" [operand.tree]
    | _ => failure)

/-- A primary expression with the accesses and calls behind it. -/
def chainRule (g : Grammar) (ends : Bool) : Parser Operand := do
  let first ← primary g ends
  Parser.iterate (link g ends true) first

/-- The callee of a construction. -/
def constructor (g : Grammar) (ends : Bool) : Parser Tree := do
  let first ← primary g ends
  guard (first.shape ≠ .hidden)
  return (← Parser.iterate (link g ends false) first).tree

/-- A construction. -/
def constructionRule (g : Grammar) (ends : Bool) : Parser Tree := do
  let start ← place
  keyword "new"
  (do
    symbol "."
    keyword "target"
    nodeFrom start "meta_property" []) <|>
  (do
    let callee ← under "constructor" (constructor g ends)
    if ← (gap ends *> symbol "(").test then
      nodeFrom start "new_expression" [callee, ← under "arguments" (arguments g)]
    else nodeFrom start "new_expression" [callee])

/-! ### Operands -/

/-- Whether an operator can assign to an operand. -/
def assignable (operator : String) : Shape → Bool
  | .name | .access | .group => true
  | .undefined => operator == "="
  | _ => false

/-- The tree of an assignment up to the cursor. -/
def assignmentFrom (operator left right : Tree) : Parser Tree :=
  if operator.kind = "=" then
    nodeFrom left.start "assignment_expression" [left.under "left", right.under "right"]
  else
    nodeFrom left.start "augmented_assignment_expression"
      [left.under "left", operator.under "operator", right.under "right"]

/-- An operand, or an assignment to it. A literal before `=` is a pattern and no operand. -/
def assignmentRest (g : Grammar) (ends : Bool) (operand : Operand) : Parser Operand :=
  (do
    gap ends
    let operator ← assignmentOperator
    guard (assignable operator.kind operand.shape)
    let right ← g.expression ends
    shaped .other (assignmentFrom operator operand.tree right)) <|>
  (do
    if operand.shape = .literal then (gap ends *> symbol "=").notAhead
    return operand)

/-- An assignment to a pattern. -/
def patternAssignment (g : Grammar) (ends : Bool) : Parser Operand := do
  let target ← destructuring g
  gap ends
  let operator ← mark (symbol "=" *> pure "=")
  let right ← g.expression ends
  shaped .other (assignmentFrom operator target right)

/-- An operand without unary operators. -/
def simpleOperand (g : Grammar) (ends : Bool) : Parser Operand :=
  (do
    let operand ← g.chain ends
    assignmentRest g ends operand) <|>
  patternAssignment g ends

/-- The operand of a unary operator. -/
def unaryArgument (g : Grammar) (ends : Bool) : Parser Tree := do
  let operand ← g.operand ends
  guard (operand.shape ≠ .hidden)
  return operand.tree

/-- The rest of a `yield`. -/
def yieldRest (g : Grammar) (ends : Bool) : Parser Unit :=
  (do gap ends; symbol "*"; discard (g.expression ends)) <|>
  (do gap ends; discard (g.expression ends)) <|>
  pure ()

/-- An operand that starts with a unary operator. -/
def unaryOperand (g : Grammar) (ends : Bool) : Parser Operand := do
  let operator ← mark (punctuator <|> word)
  let node (kind : String) (children : List Tree) : Parser Operand :=
    shaped .other (nodeFrom operator.start kind children)
  match operator.kind with
  | "++" | "--" => do node "update_expression" [← unaryArgument g ends]
  | "await" => do node "await_expression" [← unaryArgument g ends]
  | "yield" => do
    yieldRest g ends
    node "yield_expression" []
  | _ => do
    guard (["!", "~", "-", "+", "typeof", "void", "delete"].contains operator.kind)
    let argument ← under "argument" (unaryArgument g ends)
    node "unary_expression" [operator.under "operator", argument]

/-- An operand of a binary operator. -/
def operandRule (g : Grammar) (ends : Bool) : Parser Operand :=
  unaryOperand g ends <|> simpleOperand g ends

/-! ### Operations -/

/-- Operands with binary operators between them. -/
def operation (g : Grammar) (ends : Bool) : Parser Tree := do
  let first ← operandRule g ends
  let others ← Parser.many (do
    gap ends
    let operator ← binaryOperator
    return (operator, ← operandRule g ends))
  guard (hiddenNamesFit 0 first others)
  return operationsTree [] first.tree
    (others.map fun (operator, operand) => (operator, operand.tree))

/-- A question mark of a conditional expression. Only plain blanks can stand between it and the
token or comment before it. -/
def questionMark (ends : Bool) : Parser Unit := do
  if ends then goOn false
  discard (exactly (spaces.seq comment).many)
  discard (exactly (Lexeme.char isPlainSpace).many)
  (exactly (.text "?")).ahead
  symbol "?"

/-- An expression without commas. -/
def expressionRule (g : Grammar) (ends : Bool) : Parser Tree := do
  let test ← operation g ends
  (do
    questionMark ends
    let consequent ← under "consequence" (g.expression false)
    symbol ":"
    let alternate ← under "alternative" (g.expression ends)
    nodeFrom test.start "ternary_expression" [test.under "condition", consequent, alternate]) <|>
  pure test

end ScriptForms.Source
