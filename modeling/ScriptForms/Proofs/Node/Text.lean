import ScriptForms.Proofs.Node.Chain
import ScriptForms.Source.Operator

/-!
# The texts of a tree

Besides its children a node may hold texts of its own. The strings of a script may hold anything;
the other texts go into the forms as they are, so that what they spell matters.

* `Node.words`: names, operators and numbers.
* `Node.pattern?`: the pattern of a regular expression.
* `Node.commentLines`: the comment lines above a statement.
* `Node.names`: the names that a tree refers to.
* `Node.isWorded`: the names and operators of a node are those of the language.
-/

namespace ScriptForms.Node

/-- The names, operators and numbers of a node. -/
def words : Node → List String
  | .identifier word | .jsxIdentifier word | .numericLiteral word | .importDefaultSpecifier word
  | .importNamespaceSpecifier word | .unaryExpression word _ | .binaryExpression word _ _
  | .logicalExpression word _ _ | .assignmentExpression word _ _ => [word]
  | .importSpecifier imported localName => [imported, localName]
  | .exportSpecifier localName exported => [localName, exported]
  | _ => []

/-- The pattern of a regular expression. -/
def pattern? : Node → Option String
  | .regExpLiteral pattern _ => some pattern
  | _ => none

/-- The comment lines above a statement. -/
def commentLines : Node → List String
  | .expressionStatement _ comments => comments
  | _ => []

/-- The names that a tree refers to. -/
def names (node : Node) : List String := node.subtrees.filterMap identifier?

/-- The operators of one value. -/
def unaryOperators : List String := ["!", "~", "-", "+", "typeof", "void", "delete"]

/-- Whether the names and operators of a node are those of the language; no name has a hyphen. -/
def isWorded : Node → Bool
  | .identifier name => !name.toList.contains '-'
  | .unaryExpression operator _ => unaryOperators.contains operator
  | .binaryExpression operator _ _ | .logicalExpression operator _ _ =>
    (Source.binaryOperators.map Prod.fst).contains operator
  | .assignmentExpression operator _ _ => Source.assignmentOperators.contains operator
  | _ => true

/-- What holds of every node of a tree, of every access and of a name holds of every node of the
tree whose root `this` is replaced by the name. -/
theorem forall_subtrees_rebindReceiver {p : Node → Prop} {name : String}
    (hname : p (.identifier name))
    (haccess : ∀ object property computed, p (.memberExpression object property computed))
    {node : Node} (h : ∀ m ∈ node.subtrees, p m) :
    ∀ m ∈ (node.rebindReceiver name).subtrees, p m := by
  induction node using rebindReceiver.induct with
  | case1 =>
    rw [rebindReceiver, forall_subtrees_iff]
    exact ⟨hname, by simp [children]⟩
  | case2 object property computed ih =>
    have hparts := (forall_subtrees_iff.1 h).2
    simp only [children, List.forall_mem_cons] at hparts
    rw [rebindReceiver, forall_subtrees_iff]
    simp only [children, List.forall_mem_cons]
    exact ⟨haccess _ _ _, ih hparts.1, hparts.2⟩
  | case3 node h₁ h₂ =>
    rw [rebindReceiver]
    exacts [h, h₁, h₂]

end ScriptForms.Node
