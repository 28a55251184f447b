import ScriptForms.Node.Basic
import ScriptForms.Text.Letter

/-!
# Chains of accesses and calls

* `Node.dotChain`: the target and the properties of `a.b.c`.
* `Node.callChain`: the calls of `a().b().c()`, innermost first.
* `Node.isReceiverRooted`, `Node.rebindReceiver`: accesses that start at `this`, and the same
  accesses starting at a name instead.
* `Node.isRepeatable`: expressions that may be evaluated twice.
-/

namespace ScriptForms.Node

/-- The innermost target of a chain of dotted accesses and its properties in source order. A
computed access ends the chain. -/
def dotChain : Node → Node × List Node
  | .memberExpression object property false =>
    let (target, properties) := dotChain object
    (target, properties ++ [property])
  | node => (node, [])

/-- One call of a chain: the callee and its arguments. -/
structure CallLink where
  callee : Node
  arguments : List Node
  deriving Inhabited

/-- The calls of a chain such as `a().b().c()`, innermost first. The chain goes on through a callee
that is a dotted access of another call. -/
def callChain : Node → List CallLink
  | .callExpression (.memberExpression (.callExpression callee inner) property false) arguments =>
    callChain (.callExpression callee inner) ++
      [⟨.memberExpression (.callExpression callee inner) property false, arguments⟩]
  | .callExpression callee arguments => [⟨callee, arguments⟩]
  | _ => []

/-- Whether a chain of calls is long enough to be threaded. -/
def isPipeline (links : List CallLink) : Bool := links.length > 2

/-- The node at the root of a chain of accesses, dotted or computed. -/
def accessRoot : Node → Node
  | .memberExpression object _ _ => accessRoot object
  | node => node

/-- Whether a node is an access. -/
def isAccess : Node → Bool
  | .memberExpression .. => true
  | _ => false

/-- Whether a node is `this`. -/
def isThis : Node → Bool
  | .thisExpression => true
  | _ => false

/-- Whether a node is a chain of accesses that starts at `this`. -/
def isReceiverRooted (node : Node) : Bool := node.isAccess && node.accessRoot.isThis

/-- A chain of accesses with its root `this` replaced by a name. Keys and every other subtree stay
as they are. -/
def rebindReceiver (name : String) : Node → Node
  | .thisExpression => .identifier name
  | .memberExpression object property computed =>
    .memberExpression (rebindReceiver name object) property computed
  | node => node

/-- Whether an expression may be evaluated twice with the same result: names, `this`, literals and
dotted accesses of those. -/
def isRepeatable : Node → Bool
  | .identifier _ | .thisExpression | .nullLiteral | .booleanLiteral _ | .numericLiteral _
  | .stringLiteral _ => true
  | .memberExpression object _ false => isRepeatable object
  | _ => false

/-- Whether an assignment may both read and write a target by repeating its object and key. -/
def isRepeatablePlace : Node → Bool
  | .memberExpression object property computed =>
    object.isRepeatable && (!computed || property.isRepeatable)
  | _ => true

/-- Whether a tag name refers to a component: its first letter is a capital. -/
def isComponentName (name : String) : Bool :=
  match name.toList with
  | c :: _ => Text.isCapital c
  | [] => false

end ScriptForms.Node
