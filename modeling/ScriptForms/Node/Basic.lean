import ScriptForms.Text.Quoted
import ScriptForms.Text.Blank

/-!
# Syntax trees of scripts

A `Node` is a node of the syntax tree of a JavaScript program, with or without JSX. The kinds are
those of the ESTree family: statements, declarations and module items first, then expressions, then
JSX. A construct that is recognised but has no place in the tree is kept as `unsupported`, with the
name of its grammar rule and its source text.

* `Node.kind`: the name of a kind.
* `Node.describe`: a short description for messages.
* `Node.size`: the number of nodes of a tree.
-/

namespace ScriptForms

/-- How a variable is declared. -/
inductive BindingKind where
  | var
  | let
  | const
  deriving DecidableEq, Inhabited

/-- The kinds of methods of an object literal. -/
inductive MethodKind where
  | method
  | get
  | set
  deriving DecidableEq, Inhabited

/-- A node of a syntax tree. -/
inductive Node where
  | program (body : List Node)
  /-- An expression as a statement; `comments` are the comment lines directly above it. -/
  | expressionStatement (expression : Node) (comments : List String)
  | blockStatement (body : List Node)
  | emptyStatement
  | debuggerStatement
  | returnStatement (argument : Option Node)
  | breakStatement
  | throwStatement (argument : Node)
  | ifStatement (test consequent : Node) (alternate : Option Node)
  | switchStatement (discriminant : Node) (cases : List Node)
  /-- A clause of a `switch`; the default clause has no test. -/
  | switchCase (test : Option Node) (consequent : List Node)
  | tryStatement (block : Node) (handler finalizer : Option Node)
  | catchClause (param : Option Node) (body : Node)
  | variableDeclaration (kind : BindingKind) (declarations : List Node)
  | variableDeclarator (id : Node) (init : Option Node)
  | functionDeclaration (id : Node) (params : List Node) (body : Node)
  | importDeclaration (specifiers : List Node) (source : String)
  | importSpecifier (imported localName : String)
  | importDefaultSpecifier (localName : String)
  | importNamespaceSpecifier (localName : String)
  | exportDefaultDeclaration (declaration : Node)
  | exportNamedDeclaration (declaration : Option Node) (specifiers : List Node)
  | exportSpecifier (localName exported : String)
  | identifier (name : String)
  | thisExpression
  | nullLiteral
  | booleanLiteral (value : Bool)
  /-- A number, as it is written. -/
  | numericLiteral (raw : String)
  /-- A string, as its value. -/
  | stringLiteral (value : String)
  | regExpLiteral (pattern flags : String)
  /-- A template: its texts and the expressions between them. -/
  | templateLiteral (quasis : List String) (expressions : List Node)
  | arrayExpression (elements : List Node)
  | objectExpression (properties : List Node)
  | objectProperty (key value : Node) (computed shorthand : Bool)
  | objectMethod (kind : MethodKind) (key : Node) (params : List Node) (body : Node)
      (computed : Bool)
  | spreadElement (argument : Node)
  | functionExpression (id : Option Node) (params : List Node) (body : Node)
  /-- An arrow function; its body is a block or an expression. -/
  | arrowFunctionExpression (params : List Node) (body : Node)
  | unaryExpression (operator : String) (argument : Node)
  | binaryExpression (operator : String) (left right : Node)
  | logicalExpression (operator : String) (left right : Node)
  | assignmentExpression (operator : String) (left right : Node)
  | conditionalExpression (test consequent alternate : Node)
  | callExpression (callee : Node) (arguments : List Node)
  | newExpression (callee : Node) (arguments : List Node)
  /-- The access `object.property`, or `object[property]` if it is computed. -/
  | memberExpression (object property : Node) (computed : Bool)
  | jsxElement (openingElement : Node) (children : List Node)
  | jsxOpeningElement (name : Node) (attributes : List Node) (selfClosing : Bool)
  | jsxAttribute (name : Node) (value : Option Node)
  | jsxIdentifier (name : String)
  | jsxExpressionContainer (expression : Option Node)
  | jsxText (value : String)
  /-- A construct outside the tree: the name of its grammar rule and its source text. -/
  | unsupported (kind text : String)
  deriving Inhabited

namespace Node

/-- The name of the kind of a node. -/
def kind : Node → String
  | .program .. => "Program"
  | .expressionStatement .. => "ExpressionStatement"
  | .blockStatement .. => "BlockStatement"
  | .emptyStatement => "EmptyStatement"
  | .debuggerStatement => "DebuggerStatement"
  | .returnStatement .. => "ReturnStatement"
  | .breakStatement => "BreakStatement"
  | .throwStatement .. => "ThrowStatement"
  | .ifStatement .. => "IfStatement"
  | .switchStatement .. => "SwitchStatement"
  | .switchCase .. => "SwitchCase"
  | .tryStatement .. => "TryStatement"
  | .catchClause .. => "CatchClause"
  | .variableDeclaration .. => "VariableDeclaration"
  | .variableDeclarator .. => "VariableDeclarator"
  | .functionDeclaration .. => "FunctionDeclaration"
  | .importDeclaration .. => "ImportDeclaration"
  | .importSpecifier .. => "ImportSpecifier"
  | .importDefaultSpecifier .. => "ImportDefaultSpecifier"
  | .importNamespaceSpecifier .. => "ImportNamespaceSpecifier"
  | .exportDefaultDeclaration .. => "ExportDefaultDeclaration"
  | .exportNamedDeclaration .. => "ExportNamedDeclaration"
  | .exportSpecifier .. => "ExportSpecifier"
  | .identifier .. => "Identifier"
  | .thisExpression => "ThisExpression"
  | .nullLiteral => "NullLiteral"
  | .booleanLiteral .. => "BooleanLiteral"
  | .numericLiteral .. => "NumericLiteral"
  | .stringLiteral .. => "StringLiteral"
  | .regExpLiteral .. => "RegExpLiteral"
  | .templateLiteral .. => "TemplateLiteral"
  | .arrayExpression .. => "ArrayExpression"
  | .objectExpression .. => "ObjectExpression"
  | .objectProperty .. => "ObjectProperty"
  | .objectMethod .. => "ObjectMethod"
  | .spreadElement .. => "SpreadElement"
  | .functionExpression .. => "FunctionExpression"
  | .arrowFunctionExpression .. => "ArrowFunctionExpression"
  | .unaryExpression .. => "UnaryExpression"
  | .binaryExpression .. => "BinaryExpression"
  | .logicalExpression .. => "LogicalExpression"
  | .assignmentExpression .. => "AssignmentExpression"
  | .conditionalExpression .. => "ConditionalExpression"
  | .callExpression .. => "CallExpression"
  | .newExpression .. => "NewExpression"
  | .memberExpression .. => "MemberExpression"
  | .jsxElement .. => "JSXElement"
  | .jsxOpeningElement .. => "JSXOpeningElement"
  | .jsxAttribute .. => "JSXAttribute"
  | .jsxIdentifier .. => "JSXIdentifier"
  | .jsxExpressionContainer .. => "JSXExpressionContainer"
  | .jsxText .. => "JSXText"
  | .unsupported kind _ => kind

/-- The name of an identifier. -/
def identifier? : Node → Option String
  | .identifier name => some name
  | _ => none

/-- Whether a node declares variables. -/
def isDeclaration : Node → Bool
  | .variableDeclaration .. => true
  | _ => false

/-- The most characters of a source text that a description shows. -/
def describedLength : Nat := 60

/-- The first line of a source text, cut to `describedLength` characters, with an ellipsis if
anything is left out. -/
def excerpt (text : List Char) : List Char :=
  let line := (Text.splitLines text).head?.getD []
  if line.length > describedLength || text.contains '\n' then line.take describedLength ++ ['…']
  else line

/-- A short description of a node for messages. -/
def describe (node : Node) : String :=
  match node with
  | .unsupported _ text => "`" ++ String.ofList (excerpt text.toList) ++ "`"
  | .identifier name | .jsxIdentifier name => node.kind ++ " `" ++ name ++ "`"
  | .numericLiteral raw => node.kind ++ " `" ++ raw ++ "`"
  | .stringLiteral value => node.kind ++ " " ++ String.ofList (Text.quoted value.toList)
  | .memberExpression _ (.identifier name) _ => node.kind ++ " `." ++ name ++ "`"
  | _ => node.kind

mutual

/-- The number of nodes of a tree. -/
def size : Node → Nat
  | .program body | .blockStatement body => sizes body + 1
  | .expressionStatement expression _ => expression.size + 1
  | .emptyStatement | .debuggerStatement | .breakStatement | .thisExpression | .nullLiteral => 1
  | .returnStatement argument => sizeOr argument + 1
  | .throwStatement argument | .spreadElement argument => argument.size + 1
  | .ifStatement test consequent alternate => test.size + consequent.size + sizeOr alternate + 1
  | .switchStatement discriminant cases => discriminant.size + sizes cases + 1
  | .switchCase test consequent => sizeOr test + sizes consequent + 1
  | .tryStatement block handler finalizer => block.size + sizeOr handler + sizeOr finalizer + 1
  | .catchClause param body => sizeOr param + body.size + 1
  | .variableDeclaration _ declarations => sizes declarations + 1
  | .variableDeclarator id init => id.size + sizeOr init + 1
  | .functionDeclaration id params body => id.size + sizes params + body.size + 1
  | .importDeclaration specifiers _ => sizes specifiers + 1
  | .importSpecifier .. | .importDefaultSpecifier .. | .importNamespaceSpecifier ..
  | .exportSpecifier .. => 1
  | .exportDefaultDeclaration declaration => declaration.size + 1
  | .exportNamedDeclaration declaration specifiers => sizeOr declaration + sizes specifiers + 1
  | .identifier .. | .booleanLiteral .. | .numericLiteral .. | .stringLiteral ..
  | .regExpLiteral .. => 1
  | .templateLiteral _ expressions => sizes expressions + 1
  | .arrayExpression elements => sizes elements + 1
  | .objectExpression properties => sizes properties + 1
  | .objectProperty key value _ _ => key.size + value.size + 1
  | .objectMethod _ key params body _ => key.size + sizes params + body.size + 1
  | .functionExpression id params body => sizeOr id + sizes params + body.size + 1
  | .arrowFunctionExpression params body => sizes params + body.size + 1
  | .unaryExpression _ argument => argument.size + 1
  | .binaryExpression _ left right | .logicalExpression _ left right
  | .assignmentExpression _ left right => left.size + right.size + 1
  | .conditionalExpression test consequent alternate =>
    test.size + consequent.size + alternate.size + 1
  | .callExpression callee arguments | .newExpression callee arguments =>
    callee.size + sizes arguments + 1
  | .memberExpression object property _ => object.size + property.size + 1
  | .jsxElement openingElement children => openingElement.size + sizes children + 1
  | .jsxOpeningElement name attributes _ => name.size + sizes attributes + 1
  | .jsxAttribute name value => name.size + sizeOr value + 1
  | .jsxIdentifier .. | .jsxText .. | .unsupported .. => 1
  | .jsxExpressionContainer expression => sizeOr expression + 1

/-- The number of nodes of several trees. -/
def sizes : List Node → Nat
  | [] => 0
  | node :: nodes => node.size + sizes nodes

/-- The number of nodes of a tree that may be absent. -/
def sizeOr : Option Node → Nat
  | none => 0
  | some node => node.size

end

end Node

end ScriptForms
