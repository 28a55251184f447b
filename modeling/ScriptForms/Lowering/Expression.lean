import ScriptForms.Lowering.Basic

/-!
# Expressions and elements

The rules for literals, functions, operations, accesses and elements. `expressionRule?` gives the
rule of a kind of tree.
-/

namespace ScriptForms.Lowering

variable (source : List Char) (lower : Lower)

/-! ### Literals -/

/-- A regular expression. -/
def regex (tree : Tree) : Except ParseError Node := do
  let pattern := textOf source (← field source tree "pattern")
  return .regExpLiteral pattern (((tree.child? "flags").map (textOf source)).getD "")

/-- The value of the part of a source between two offsets. -/
def quasi (start stop : Nat) : String :=
  String.ofList (Source.unescape ((source.drop start).take (stop - start)))

/-- The texts of a template and the expressions between them, from an offset up to the end of the
template. -/
def templateParts (stop : Nat) : (offset : Nat) → List Tree →
    Except ParseError (List String × List Node)
  | offset, [] => return ([quasi source offset stop], [])
  | offset, substitution :: rest => do
    let expression ← lowerFirst source lower "expression" substitution
    let (texts, expressions) ← templateParts stop substitution.stop rest
    return (quasi source offset substitution.start :: texts, expression :: expressions)

/-- A template. -/
def template (tree : Tree) : Except ParseError Node := do
  let substitutions := tree.named.filter (·.kind == "template_substitution")
  let (texts, expressions) ←
    templateParts source lower (tree.stop - 1) (tree.start + 1) substitutions
  return .templateLiteral texts expressions

/-- The word before the key of a method that makes it an accessor. -/
def methodKind (tree : Tree) : MethodKind :=
  if tree.hasToken "get" then .get else if tree.hasToken "set" then .set else .method

/-- A method of an object. Asynchronous methods and generators are kept as their text. -/
def objectMethod (tree : Tree) : Except ParseError Node := do
  if tree.hasToken "async" || tree.hasToken "*" then return unsupported source tree
  let (key, computed) ← propertyKey source lower (← field source tree "name")
  let params ← params source tree
  let body ← lowerAt source lower "body" tree
  return .objectMethod (methodKind tree) key params body computed

/-- A key and a value. -/
def pair (tree : Tree) : Except ParseError Node := do
  let (key, computed) ← propertyKey source lower (← field source tree "key")
  return .objectProperty key (← lowerAt source lower "value" tree) computed false

/-- A member of an object. -/
def objectMember (tree : Tree) : Except ParseError Node :=
  match tree.kind with
  | "pair" => pair source lower tree
  | "shorthand_property_identifier" =>
    return .objectProperty (nameOf source tree) (nameOf source tree) false true
  | "method_definition" => objectMethod source lower tree
  | "spread_element" => lower tree
  | _ => return unsupported source tree

/-! ### Functions -/

/-- A function as an expression. An asynchronous one is kept as its text. -/
def functionExpression (tree : Tree) : Except ParseError Node := do
  if tree.hasToken "async" then return unsupported source tree
  let name := (tree.child? "name").map (nameOf source)
  let params ← params source tree
  return .functionExpression name params (← lowerAt source lower "body" tree)

/-- The parameters of an arrow function: one name, or several in parentheses. -/
def arrowParams (tree : Tree) : Except ParseError (List Node) :=
  match tree.child? "parameter" with
  | some only => return [param source only]
  | none => params source tree

/-- An arrow function. An asynchronous one is kept as its text. -/
def arrowFunction (tree : Tree) : Except ParseError Node := do
  if tree.hasToken "async" then return unsupported source tree
  let params ← arrowParams source tree
  return .arrowFunctionExpression params (← lowerAt source lower "body" tree)

/-! ### Operations -/

/-- The text of the operator of an operation. -/
def operatorOf (tree : Tree) : Except ParseError String := do
  return textOf source (← field source tree "operator")

/-- An operation on one value. -/
def unary (tree : Tree) : Except ParseError Node := do
  let operator ← operatorOf source tree
  return .unaryExpression operator (← lowerAt source lower "argument" tree)

/-- An operation on two values. -/
def binary (tree : Tree) : Except ParseError Node := do
  let operator ← operatorOf source tree
  let left ← lowerAt source lower "left" tree
  let right ← lowerAt source lower "right" tree
  if operator = "&&" ∨ operator = "||" ∨ operator = "??" then
    return .logicalExpression operator left right
  else return .binaryExpression operator left right

/-- An assignment with the given operator. -/
def assignment (operator : String) (tree : Tree) : Except ParseError Node := do
  let left ← lowerAt source lower "left" tree
  return .assignmentExpression operator left (← lowerAt source lower "right" tree)

/-- An assignment that applies an operator first. -/
def augmentedAssignment (tree : Tree) : Except ParseError Node := do
  assignment source lower (← operatorOf source tree) tree

/-- A conditional expression. -/
def ternary (tree : Tree) : Except ParseError Node := do
  let test ← lowerAt source lower "condition" tree
  let consequent ← lowerAt source lower "consequence" tree
  return .conditionalExpression test consequent (← lowerAt source lower "alternative" tree)

/-! ### Accesses and calls -/

/-- Whether an access or a call is skipped where there is no object. -/
def isOptional (tree : Tree) : Bool := (tree.child? "optional_chain").isSome

/-- A call. An optional one, and one of a template, is kept as its text. -/
def call (tree : Tree) : Except ParseError Node := do
  let arguments ← field source tree "arguments"
  if isOptional tree || arguments.kind != "arguments" then return unsupported source tree
  let callee ← lowerAt source lower "function" tree
  return .callExpression callee (← lowerNamed lower arguments)

/-- A construction. -/
def construction (tree : Tree) : Except ParseError Node := do
  let callee ← lowerAt source lower "constructor" tree
  match tree.child? "arguments" with
  | some arguments => return .newExpression callee (← lowerNamed lower arguments)
  | none => return .newExpression callee []

/-- An access to a property. An optional one, and one to a private name, is kept as its text. -/
def member (tree : Tree) : Except ParseError Node := do
  let property ← field source tree "property"
  if isOptional tree || property.kind == "private_property_identifier" then
    return unsupported source tree
  return .memberExpression (← lowerAt source lower "object" tree) (nameOf source property) false

/-- An access to an element. An optional one is kept as its text. -/
def subscript (tree : Tree) : Except ParseError Node := do
  if isOptional tree then return unsupported source tree
  let object ← lowerAt source lower "object" tree
  return .memberExpression object (← lowerAt source lower "index" tree) true

/-! ### Elements -/

/-- The name of an element; a name in several parts is kept as its text. -/
def tagName (tree : Tree) : Node :=
  match tree.kind with
  | "identifier" | "jsx_identifier" => .jsxIdentifier (textOf source tree)
  | _ => unsupported source tree

/-- An attribute in an opening. A spread is kept as its text. -/
def openingAttribute (tree : Tree) : Except ParseError Node :=
  match tree.kind with
  | "jsx_attribute" => lower tree
  | _ => return unsupported source tree

/-- The opening of an element. -/
def opening (selfClosing : Bool) (tree : Tree) : Except ParseError Node := do
  let name := tagName source (← field source tree "name")
  let attributes ← (tree.childrenAt "attribute").mapM (openingAttribute source lower)
  return .jsxOpeningElement name attributes selfClosing

/-- An element with tags around its children. One without a name is kept as its text. -/
def element (tree : Tree) : Except ParseError Node := do
  let tag ← field source tree "open_tag"
  if (tag.child? "name").isNone then return unsupported source tree
  let opening ← opening source lower false tag
  return .jsxElement opening (← tree.content.mapM lower)

/-- An element that closes itself. -/
def selfClosingElement (tree : Tree) : Except ParseError Node :=
  return .jsxElement (← opening source lower true tree) []

/-- The value of an attribute. A string stands for itself, without escapes. -/
def attributeValue (tree : Tree) : Except ParseError Node :=
  match tree.kind with
  | "string" => return .stringLiteral (String.ofList (Source.stripQuotes (tree.text source)))
  | _ => lower tree

/-- An attribute. One with a name in two parts is kept as its text. -/
def elementAttribute (tree : Tree) : Except ParseError Node := do
  let name ← firstNamed source tree "name"
  if name.kind != "property_identifier" && name.kind != "identifier" then
    return unsupported source tree
  let value ← tree.named.tail.head?.mapM (attributeValue source lower)
  return .jsxAttribute (.jsxIdentifier (textOf source name)) value

/-! ### All expressions -/

/-- The rule of a kind of expression, of a spread or of a part of an element. -/
def expressionRule? (kind : String) : Option Lower :=
  match kind with
  | "parenthesized_expression" => some (lowerFirst source lower "expression")
  | "identifier" | "property_identifier" | "shorthand_property_identifier" => some fun tree =>
    return nameOf source tree
  | "this" => some fun _ => return .thisExpression
  | "null" | "undefined" => some fun _ => return .nullLiteral
  | "true" => some fun _ => return .booleanLiteral true
  | "false" => some fun _ => return .booleanLiteral false
  | "number" => some fun tree => return .numericLiteral (textOf source tree)
  | "string" => some fun tree => return .stringLiteral (valueOf source tree)
  | "regex" => some (regex source)
  | "template_string" => some (template source lower)
  | "array" => some fun tree => return .arrayExpression (← lowerNamed lower tree)
  | "object" => some fun tree =>
    return .objectExpression (← tree.named.mapM (objectMember source lower))
  | "spread_element" => some fun tree =>
    return .spreadElement (← lowerFirst source lower "argument" tree)
  | "function_expression" | "function" => some (functionExpression source lower)
  | "arrow_function" => some (arrowFunction source lower)
  | "unary_expression" => some (unary source lower)
  | "binary_expression" => some (binary source lower)
  | "assignment_expression" => some (assignment source lower "=")
  | "augmented_assignment_expression" => some (augmentedAssignment source lower)
  | "ternary_expression" => some (ternary source lower)
  | "call_expression" => some (call source lower)
  | "new_expression" => some (construction source lower)
  | "member_expression" => some (member source lower)
  | "subscript_expression" => some (subscript source lower)
  | "jsx_element" => some (element source lower)
  | "jsx_self_closing_element" => some (selfClosingElement source lower)
  | "jsx_attribute" => some (elementAttribute source lower)
  | "jsx_expression" => some fun tree => return .jsxExpressionContainer (← lowerFirst? lower tree)
  | "jsx_text" => some fun tree => return .jsxText (textOf source tree)
  | _ => none

end ScriptForms.Lowering
