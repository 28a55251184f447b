import ScriptForms.Rule.Access
import ScriptForms.Rule.Element
import ScriptForms.Rule.Literal
import ScriptForms.Rule.Module
import ScriptForms.Rule.Statement

/-!
# From trees to forms

* `Rule.step`: the rule of each kind of node, for a given conversion of smaller nodes.
* `Rule.convert`: the rules tied together, up to a depth of nesting.
* `Node.forms`, `Node.toProgram`: the forms of a tree, and a tree as the root of a file.
-/

namespace ScriptForms

namespace Rule

/-- The forms of a node, given the conversion of smaller nodes. -/
def step (scope : Scope) (visit : Visit) : Visit := fun node context =>
  match node with
  | .program body => return [← program visit body]
  | .expressionStatement expression _ => visit expression .value
  | .blockStatement body => do
    let forms ← statements visit body
    return if context.implicitDo then forms else [.sequence forms]
  | .emptyStatement => .ok [.empty]
  | .debuggerStatement => .ok [.call "js-debugger" []]
  | .returnStatement none => .ok [.nil]
  | .returnStatement (some argument) => visit argument .value
  | .breakStatement => .ok [.leave]
  | .throwStatement argument => return [.call "throw" [← visit.one argument]]
  | .ifStatement .. => return [← ifStatement visit node]
  | .switchStatement discriminant cases => return [← switchStatement visit discriminant cases]
  | .tryStatement block handler finalizer => return [← tryStatement visit block handler finalizer]
  | .variableDeclaration _ declarations => declarations.mapM (declarator visit)
  | .variableDeclarator .. => return [← declarator visit node]
  | .functionDeclaration id params body => do
    let name ← bindingName id
    return [← function visit "defn" (some name) params body]
  | .importDeclaration specifiers source => importDeclaration specifiers source
  | .exportDefaultDeclaration declaration => return [← exportDefault visit declaration]
  | .exportNamedDeclaration declaration specifiers => exportNamed visit declaration specifiers
  | .identifier name => .ok [identifier scope name context]
  | .thisExpression => .ok [.thisAs receiver (.symbol receiver)]
  | .nullLiteral => .ok [.nil]
  | .booleanLiteral value => .ok [.boolean value]
  | .numericLiteral raw => .ok [.number raw]
  | .stringLiteral value => .ok [.string value]
  | .regExpLiteral pattern flags => .ok [.regex pattern flags]
  | .templateLiteral texts expressions => return [← template visit texts expressions]
  | .arrayExpression elements => return [← array visit elements]
  | .objectExpression properties => return [← object visit properties]
  | .functionExpression id params body => do
    let name ← id.mapM bindingName
    return [← function visit "fn" name params body]
  | .arrowFunctionExpression params body => return [← function visit "fn" none params body]
  | .unaryExpression operator argument => return [← unary visit operator argument]
  | .binaryExpression operator left right | .logicalExpression operator left right => do
    let left ← visit.one left
    let right ← visit.one right
    return [.call (operatorName operator) [left, right]]
  | .assignmentExpression operator left right => return [← assignment visit operator left right]
  | .conditionalExpression test consequent alternate => do
    let test ← visit.one test
    let consequent ← visit.one consequent
    let alternate ← visit.one alternate
    return [.call "if" [test, consequent, alternate]]
  | .callExpression callee arguments => return [← callExpression visit callee arguments]
  | .newExpression callee arguments => return [← newExpression visit callee arguments]
  | .memberExpression .. => return [← member visit node]
  | .jsxElement opening children => return [← jsxElement visit opening children]
  | .jsxIdentifier name => .ok [elementName name context]
  | .jsxExpressionContainer none => .ok [.empty]
  | .jsxExpressionContainer (some expression) => visit expression .value
  | .jsxText value => .ok [elementText value]
  | .switchCase .. | .catchClause .. | .importSpecifier .. | .importDefaultSpecifier ..
  | .importNamespaceSpecifier .. | .exportSpecifier .. | .objectProperty .. | .objectMethod ..
  | .spreadElement .. | .jsxOpeningElement .. | .jsxAttribute .. => .error (.misplaced node)
  | .unsupported .. => .error (.unsupported node)

/-- The forms of a node that is nested no deeper than the given depth. -/
def convert (scope : Scope) : (depth : Nat) → Visit
  | 0 => fun node _ => .error (.unsupported node)
  | depth + 1 => step scope (convert scope depth)

end Rule

namespace Node

/-- The forms of a tree. Every rule visits smaller trees only, so the size of the tree is depth
enough. -/
def forms (scope : Scope) (node : Node) (context : Context := .value) : Except Fault (List Form) :=
  Rule.convert scope node.size node context

/-- A tree as the root of a file. -/
def toProgram (scope : Scope) (node : Node) : Except Fault Form :=
  match node with
  | .program body => Rule.program (Rule.convert scope node.size) body
  | _ => return .program (← node.forms scope)

end Node

end ScriptForms
