import ScriptForms.Node.Basic
import ScriptForms.Json.Decode

/-!
# Syntax trees as JSON

A node is written as an object whose `type` field names its kind, followed by its parts in order.
An absent part is `null`; the comments of an expression statement are left out when there are none.
-/

namespace ScriptForms

/-- The keyword of a declaration. -/
def BindingKind.keyword : BindingKind → String
  | .var => "var"
  | .let => "let"
  | .const => "const"

/-- The kind of declaration that a keyword introduces. -/
def BindingKind.ofKeyword? : String → Option BindingKind
  | "var" => some .var
  | "let" => some .let
  | "const" => some .const
  | _ => none

/-- The name of a kind of method. -/
def MethodKind.label : MethodKind → String
  | .method => "method"
  | .get => "get"
  | .set => "set"

/-- The kind of method with a name. -/
def MethodKind.ofLabel? : String → Option MethodKind
  | "method" => some .method
  | "get" => some .get
  | "set" => some .set
  | _ => none

namespace Node

/-- The JSON object of a kind of node with its parts. -/
def tagged (kind : String) (parts : List (String × Json)) : Json :=
  .obj (("type", .str kind) :: parts)

/-- A JSON array of strings. -/
def textArray (texts : List String) : Json := .arr (texts.map Json.str)

mutual

/-- The JSON object of a node. -/
def toJson : Node → Json
  | .program body => tagged "Program" [("body", .arr (toJsonAll body))]
  | .expressionStatement expression comments =>
    tagged "ExpressionStatement" (("expression", toJson expression) ::
      if comments.isEmpty then [] else [("comments", textArray comments)])
  | .blockStatement body => tagged "BlockStatement" [("body", .arr (toJsonAll body))]
  | .emptyStatement => tagged "EmptyStatement" []
  | .debuggerStatement => tagged "DebuggerStatement" []
  | .returnStatement argument => tagged "ReturnStatement" [("argument", toJsonOr argument)]
  | .breakStatement => tagged "BreakStatement" []
  | .throwStatement argument => tagged "ThrowStatement" [("argument", toJson argument)]
  | .ifStatement test consequent alternate =>
    tagged "IfStatement" [("test", toJson test), ("consequent", toJson consequent),
      ("alternate", toJsonOr alternate)]
  | .switchStatement discriminant cases =>
    tagged "SwitchStatement" [("discriminant", toJson discriminant),
      ("cases", .arr (toJsonAll cases))]
  | .switchCase test consequent =>
    tagged "SwitchCase" [("test", toJsonOr test), ("consequent", .arr (toJsonAll consequent))]
  | .tryStatement block handler finalizer =>
    tagged "TryStatement" [("block", toJson block), ("handler", toJsonOr handler),
      ("finalizer", toJsonOr finalizer)]
  | .catchClause param body =>
    tagged "CatchClause" [("param", toJsonOr param), ("body", toJson body)]
  | .variableDeclaration kind declarations =>
    tagged "VariableDeclaration" [("kind", .str kind.keyword),
      ("declarations", .arr (toJsonAll declarations))]
  | .variableDeclarator id init =>
    tagged "VariableDeclarator" [("id", toJson id), ("init", toJsonOr init)]
  | .functionDeclaration id params body =>
    tagged "FunctionDeclaration" [("id", toJson id), ("params", .arr (toJsonAll params)),
      ("body", toJson body)]
  | .importDeclaration specifiers source =>
    tagged "ImportDeclaration"
      [("specifiers", .arr (toJsonAll specifiers)), ("source", .str source)]
  | .importSpecifier imported localName =>
    tagged "ImportSpecifier" [("imported", .str imported), ("local", .str localName)]
  | .importDefaultSpecifier localName => tagged "ImportDefaultSpecifier" [("local", .str localName)]
  | .importNamespaceSpecifier localName =>
    tagged "ImportNamespaceSpecifier" [("local", .str localName)]
  | .exportDefaultDeclaration declaration =>
    tagged "ExportDefaultDeclaration" [("declaration", toJson declaration)]
  | .exportNamedDeclaration declaration specifiers =>
    tagged "ExportNamedDeclaration" [("declaration", toJsonOr declaration),
      ("specifiers", .arr (toJsonAll specifiers))]
  | .exportSpecifier localName exported =>
    tagged "ExportSpecifier" [("local", .str localName), ("exported", .str exported)]
  | .identifier name => tagged "Identifier" [("name", .str name)]
  | .thisExpression => tagged "ThisExpression" []
  | .nullLiteral => tagged "NullLiteral" []
  | .booleanLiteral value => tagged "BooleanLiteral" [("value", .bool value)]
  | .numericLiteral raw => tagged "NumericLiteral" [("raw", .str raw)]
  | .stringLiteral value => tagged "StringLiteral" [("value", .str value)]
  | .regExpLiteral pattern flags =>
    tagged "RegExpLiteral" [("pattern", .str pattern), ("flags", .str flags)]
  | .templateLiteral quasis expressions =>
    tagged "TemplateLiteral" [("quasis", textArray quasis),
      ("expressions", .arr (toJsonAll expressions))]
  | .arrayExpression elements => tagged "ArrayExpression" [("elements", .arr (toJsonAll elements))]
  | .objectExpression properties =>
    tagged "ObjectExpression" [("properties", .arr (toJsonAll properties))]
  | .objectProperty key value computed shorthand =>
    tagged "ObjectProperty" [("key", toJson key), ("value", toJson value),
      ("computed", .bool computed), ("shorthand", .bool shorthand)]
  | .objectMethod kind key params body computed =>
    tagged "ObjectMethod" [("kind", .str kind.label), ("key", toJson key),
      ("params", .arr (toJsonAll params)), ("body", toJson body), ("computed", .bool computed)]
  | .spreadElement argument => tagged "SpreadElement" [("argument", toJson argument)]
  | .functionExpression id params body =>
    tagged "FunctionExpression" [("id", toJsonOr id), ("params", .arr (toJsonAll params)),
      ("body", toJson body)]
  | .arrowFunctionExpression params body =>
    tagged "ArrowFunctionExpression" [("params", .arr (toJsonAll params)), ("body", toJson body)]
  | .unaryExpression operator argument =>
    tagged "UnaryExpression" [("operator", .str operator), ("argument", toJson argument)]
  | .binaryExpression operator left right =>
    tagged "BinaryExpression" [("operator", .str operator), ("left", toJson left),
      ("right", toJson right)]
  | .logicalExpression operator left right =>
    tagged "LogicalExpression" [("operator", .str operator), ("left", toJson left),
      ("right", toJson right)]
  | .assignmentExpression operator left right =>
    tagged "AssignmentExpression" [("operator", .str operator), ("left", toJson left),
      ("right", toJson right)]
  | .conditionalExpression test consequent alternate =>
    tagged "ConditionalExpression" [("test", toJson test), ("consequent", toJson consequent),
      ("alternate", toJson alternate)]
  | .callExpression callee arguments =>
    tagged "CallExpression" [("callee", toJson callee), ("arguments", .arr (toJsonAll arguments))]
  | .newExpression callee arguments =>
    tagged "NewExpression" [("callee", toJson callee), ("arguments", .arr (toJsonAll arguments))]
  | .memberExpression object property computed =>
    tagged "MemberExpression" [("object", toJson object), ("property", toJson property),
      ("computed", .bool computed)]
  | .jsxElement openingElement children =>
    tagged "JSXElement" [("openingElement", toJson openingElement),
      ("children", .arr (toJsonAll children))]
  | .jsxOpeningElement name attributes selfClosing =>
    tagged "JSXOpeningElement" [("name", toJson name), ("attributes", .arr (toJsonAll attributes)),
      ("selfClosing", .bool selfClosing)]
  | .jsxAttribute name value =>
    tagged "JSXAttribute" [("name", toJson name), ("value", toJsonOr value)]
  | .jsxIdentifier name => tagged "JSXIdentifier" [("name", .str name)]
  | .jsxExpressionContainer expression =>
    tagged "JSXExpressionContainer" [("expression", toJsonOr expression)]
  | .jsxText value => tagged "JSXText" [("value", .str value)]
  | .unsupported kind text =>
    tagged "Unsupported" [("kind", .str kind), ("text", .str text)]

/-- The JSON objects of several nodes. -/
def toJsonAll : List Node → List Json
  | [] => []
  | node :: nodes => toJson node :: toJsonAll nodes

/-- The JSON object of a node that may be absent. -/
def toJsonOr : Option Node → Json
  | none => .null
  | some node => toJson node

end

/-- A node from the fields of its object. -/
def ofFields (fields : Fields Node) : Option Node := do
  let kind ← fields.text "type"
  match kind with
  | "Program" => return .program (← fields.children "body")
  | "ExpressionStatement" =>
    return .expressionStatement (← fields.child "expression") (← fields.texts "comments")
  | "BlockStatement" => return .blockStatement (← fields.children "body")
  | "EmptyStatement" => return .emptyStatement
  | "DebuggerStatement" => return .debuggerStatement
  | "ReturnStatement" => return .returnStatement (← fields.child? "argument")
  | "BreakStatement" => return .breakStatement
  | "ThrowStatement" => return .throwStatement (← fields.child "argument")
  | "IfStatement" =>
    return .ifStatement (← fields.child "test") (← fields.child "consequent")
      (← fields.child? "alternate")
  | "SwitchStatement" =>
    return .switchStatement (← fields.child "discriminant") (← fields.children "cases")
  | "SwitchCase" => return .switchCase (← fields.child? "test") (← fields.children "consequent")
  | "TryStatement" =>
    return .tryStatement (← fields.child "block") (← fields.child? "handler")
      (← fields.child? "finalizer")
  | "CatchClause" => return .catchClause (← fields.child? "param") (← fields.child "body")
  | "VariableDeclaration" =>
    return .variableDeclaration (← BindingKind.ofKeyword? (← fields.text "kind"))
      (← fields.children "declarations")
  | "VariableDeclarator" =>
    return .variableDeclarator (← fields.child "id") (← fields.child? "init")
  | "FunctionDeclaration" =>
    return .functionDeclaration (← fields.child "id") (← fields.children "params")
      (← fields.child "body")
  | "ImportDeclaration" =>
    return .importDeclaration (← fields.children "specifiers") (← fields.text "source")
  | "ImportSpecifier" =>
    return .importSpecifier (← fields.text "imported") (← fields.text "local")
  | "ImportDefaultSpecifier" => return .importDefaultSpecifier (← fields.text "local")
  | "ImportNamespaceSpecifier" => return .importNamespaceSpecifier (← fields.text "local")
  | "ExportDefaultDeclaration" =>
    return .exportDefaultDeclaration (← fields.child "declaration")
  | "ExportNamedDeclaration" =>
    return .exportNamedDeclaration (← fields.child? "declaration") (← fields.children "specifiers")
  | "ExportSpecifier" =>
    return .exportSpecifier (← fields.text "local") (← fields.text "exported")
  | "Identifier" => return .identifier (← fields.text "name")
  | "ThisExpression" => return .thisExpression
  | "NullLiteral" => return .nullLiteral
  | "BooleanLiteral" => return .booleanLiteral (← fields.flag "value")
  | "NumericLiteral" => return .numericLiteral (← fields.text "raw")
  | "StringLiteral" => return .stringLiteral (← fields.text "value")
  | "RegExpLiteral" => return .regExpLiteral (← fields.text "pattern") (← fields.text "flags")
  | "TemplateLiteral" =>
    return .templateLiteral (← fields.texts "quasis") (← fields.children "expressions")
  | "ArrayExpression" => return .arrayExpression (← fields.children "elements")
  | "ObjectExpression" => return .objectExpression (← fields.children "properties")
  | "ObjectProperty" =>
    return .objectProperty (← fields.child "key") (← fields.child "value")
      (← fields.flag "computed") (← fields.flag "shorthand")
  | "ObjectMethod" =>
    return .objectMethod (← MethodKind.ofLabel? (← fields.text "kind")) (← fields.child "key")
      (← fields.children "params") (← fields.child "body") (← fields.flag "computed")
  | "SpreadElement" => return .spreadElement (← fields.child "argument")
  | "FunctionExpression" =>
    return .functionExpression (← fields.child? "id") (← fields.children "params")
      (← fields.child "body")
  | "ArrowFunctionExpression" =>
    return .arrowFunctionExpression (← fields.children "params") (← fields.child "body")
  | "UnaryExpression" =>
    return .unaryExpression (← fields.text "operator") (← fields.child "argument")
  | "BinaryExpression" =>
    return .binaryExpression (← fields.text "operator") (← fields.child "left")
      (← fields.child "right")
  | "LogicalExpression" =>
    return .logicalExpression (← fields.text "operator") (← fields.child "left")
      (← fields.child "right")
  | "AssignmentExpression" =>
    return .assignmentExpression (← fields.text "operator") (← fields.child "left")
      (← fields.child "right")
  | "ConditionalExpression" =>
    return .conditionalExpression (← fields.child "test") (← fields.child "consequent")
      (← fields.child "alternate")
  | "CallExpression" =>
    return .callExpression (← fields.child "callee") (← fields.children "arguments")
  | "NewExpression" =>
    return .newExpression (← fields.child "callee") (← fields.children "arguments")
  | "MemberExpression" =>
    return .memberExpression (← fields.child "object") (← fields.child "property")
      (← fields.flag "computed")
  | "JSXElement" =>
    return .jsxElement (← fields.child "openingElement") (← fields.children "children")
  | "JSXOpeningElement" =>
    return .jsxOpeningElement (← fields.child "name") (← fields.children "attributes")
      (← fields.flag "selfClosing")
  | "JSXAttribute" => return .jsxAttribute (← fields.child "name") (← fields.child? "value")
  | "JSXIdentifier" => return .jsxIdentifier (← fields.text "name")
  | "JSXExpressionContainer" => return .jsxExpressionContainer (← fields.child? "expression")
  | "JSXText" => return .jsxText (← fields.text "value")
  | "Unsupported" => return .unsupported (← fields.text "kind") (← fields.text "text")
  | _ => none

/-- Reads a node from JSON. -/
def ofJson? (document : Json) : Option Node := (document.read ofFields).tree?

end Node

end ScriptForms
