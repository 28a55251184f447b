import ScriptForms.Proofs.Shadowing

/-!
# The free names of a tree

A name of a script means the innermost declaration around it, wherever that declaration stands in
its scope. A block is the scope of the variables and functions that its statements declare, and a
function that of its parameters and of every `var` inside it. The names of properties mean nothing
by themselves.

* `Node.varNames`: the names that are declared with `var` outside of nested functions.
* `Node.functionNames`: the names that a function binds.
* `Node.refersTo`: whether a name occurs free in a tree.
-/

namespace ScriptForms.Node

mutual

/-- The names that a statement declares with `var`, for the function that it stands in. -/
def varNames : Node → List String
  | .variableDeclaration .var declarations => declarations.filterMap declaredName?
  | .blockStatement body | .switchCase _ body => varNamesAll body
  | .ifStatement _ consequent alternate => consequent.varNames ++ varNamesOr alternate
  | .switchStatement _ cases => varNamesAll cases
  | .tryStatement block handler finalizer =>
    block.varNames ++ varNamesOr handler ++ varNamesOr finalizer
  | .catchClause _ body => body.varNames
  | _ => []

/-- The names that several statements declare with `var`. -/
def varNamesAll : List Node → List String
  | [] => []
  | node :: nodes => node.varNames ++ varNamesAll nodes

/-- The names that a statement declares with `var`, if there is one. -/
def varNamesOr : Option Node → List String
  | none => []
  | some node => node.varNames

end

/-- The names that a statement declares for the block it stands in: variables and functions. -/
def blockNames : Node → List String
  | .functionDeclaration id _ _ => id.identifier?.toList
  | node => node.lexicalNames

/-- The names that a function binds: its own one, its parameters and every `var` inside it. -/
def functionNames (id : Option Node) (params : List Node) (body : Node) : List String :=
  (id.toList ++ params).filterMap identifier? ++ body.varNames

mutual

/-- Whether a name occurs free in a tree. -/
def refersTo (name : String) : Node → Bool
  | .identifier text => text == name
  | .program body | .blockStatement body =>
    !(body.flatMap blockNames).contains name && anyRefersTo name body
  -- The clauses of a `switch` are one block; what it looks at is outside.
  | .switchStatement discriminant cases =>
    refersTo name discriminant ||
      !((cases.flatMap children).flatMap blockNames).contains name && anyRefersTo name cases
  | .switchCase test consequent => orRefersTo name test || anyRefersTo name consequent
  | .catchClause param body =>
    !(param.toList.filterMap identifier?).contains name && refersTo name body
  | .functionDeclaration _ params body | .arrowFunctionExpression params body =>
    !(functionNames none params body).contains name && refersTo name body
  | .functionExpression id params body =>
    !(functionNames id params body).contains name && refersTo name body
  | .objectMethod _ key params body computed =>
    computed && refersTo name key ||
      !(functionNames none params body).contains name && refersTo name body
  | .objectProperty key value computed _ => computed && refersTo name key || refersTo name value
  | .memberExpression object property computed =>
    refersTo name object || computed && refersTo name property
  | .variableDeclarator _ init => orRefersTo name init
  | .expressionStatement node _ | .throwStatement node | .spreadElement node
  | .unaryExpression _ node | .exportDefaultDeclaration node => refersTo name node
  | .returnStatement node | .jsxExpressionContainer node | .jsxAttribute _ node =>
    orRefersTo name node
  | .ifStatement test consequent alternate =>
    refersTo name test || refersTo name consequent || orRefersTo name alternate
  | .tryStatement block handler finalizer =>
    refersTo name block || orRefersTo name handler || orRefersTo name finalizer
  | .binaryExpression _ left right | .logicalExpression _ left right
  | .assignmentExpression _ left right => refersTo name left || refersTo name right
  | .conditionalExpression test consequent alternate =>
    refersTo name test || refersTo name consequent || refersTo name alternate
  | .callExpression node nodes | .newExpression node nodes | .jsxElement node nodes
  | .jsxOpeningElement node nodes _ => refersTo name node || anyRefersTo name nodes
  | .variableDeclaration _ nodes | .templateLiteral _ nodes | .arrayExpression nodes
  | .objectExpression nodes => anyRefersTo name nodes
  | .exportNamedDeclaration node nodes => orRefersTo name node || anyRefersTo name nodes
  | .exportSpecifier localName _ => localName == name
  -- The tag of an element; other tags than those of components mean nothing.
  | .jsxIdentifier tag => isComponentName tag && tag == name
  | _ => false

/-- Whether a name occurs free in one of several trees. -/
def anyRefersTo (name : String) : List Node → Bool
  | [] => false
  | node :: nodes => refersTo name node || anyRefersTo name nodes

/-- Whether a name occurs free in a tree that may be absent. -/
def orRefersTo (name : String) : Option Node → Bool
  | none => false
  | some node => refersTo name node

end

/-- A function that has a name of its own does not refer to anything else under that name. -/
theorem not_refersTo_functionExpression (name : String) (params : List Node) (body : Node) :
    refersTo name (.functionExpression (some (.identifier name)) params body) = false := by
  have hown : (functionNames (some (.identifier name)) params body).contains name := by
    simp [functionNames, identifier?]
  change (!(functionNames _ params body).contains name && refersTo name body) = false
  rw [hown]
  rfl

end ScriptForms.Node
