import Mathlib.Data.List.Basic
import ScriptForms.Node.Basic

/-!
# The nodes of a tree

* `Node.children`: the nodes directly below a node, in source order.
* `Node.subtrees`: every node of a tree, the tree itself first.
* `Node.descendants`: every node of a tree but its root.

A property holds at every node of a tree iff it holds at the root and at every node of each child
(`forall_subtrees_iff`). `Node.size_of_child` is the measure of every induction over trees, and of
every recursion that is cut off at a depth (`Node.depth_congr`).
-/

namespace ScriptForms

/-- A recursion that is cut off at a depth is the same for all depths that are enough for the size
of its argument, if each step looks at smaller arguments only. -/
theorem cut_congr {α β : Type} {size : α → Nat} (hpos : ∀ a, 0 < size a)
    {go : (depth : Nat) → α → β}
    (hstep : ∀ d e a, (∀ b, size b < size a → go d b = go e b) → go (d + 1) a = go (e + 1) a)
    {a : α} {d e : Nat} (hd : size a ≤ d) (he : size a ≤ e) : go d a = go e a := by
  have := hpos a
  induction d generalizing a e with
  | zero => omega
  | succ d ih =>
    obtain ⟨e, rfl⟩ : ∃ k, e = k + 1 := Nat.exists_eq_succ_of_ne_zero (by omega)
    exact hstep d e a fun b hb => ih (by omega) (by omega) (hpos b)

namespace Node

/-- The nodes directly below a node. -/
def children : Node → List Node
  | .program body | .blockStatement body => body
  | .expressionStatement expression _ => [expression]
  | .emptyStatement | .debuggerStatement | .breakStatement | .thisExpression | .nullLiteral => []
  | .returnStatement argument => argument.toList
  | .throwStatement argument | .spreadElement argument => [argument]
  | .ifStatement test consequent alternate => test :: consequent :: alternate.toList
  | .switchStatement discriminant cases => discriminant :: cases
  | .switchCase test consequent => test.toList ++ consequent
  | .tryStatement block handler finalizer => block :: (handler.toList ++ finalizer.toList)
  | .catchClause param body => param.toList ++ [body]
  | .variableDeclaration _ declarations => declarations
  | .variableDeclarator id init => id :: init.toList
  | .functionDeclaration id params body => id :: (params ++ [body])
  | .importDeclaration specifiers _ => specifiers
  | .importSpecifier .. | .importDefaultSpecifier .. | .importNamespaceSpecifier ..
  | .exportSpecifier .. => []
  | .exportDefaultDeclaration declaration => [declaration]
  | .exportNamedDeclaration declaration specifiers => declaration.toList ++ specifiers
  | .identifier .. | .booleanLiteral .. | .numericLiteral .. | .stringLiteral ..
  | .regExpLiteral .. => []
  | .templateLiteral _ expressions => expressions
  | .arrayExpression elements => elements
  | .objectExpression properties => properties
  | .objectProperty key value _ _ => [key, value]
  | .objectMethod _ key params body _ => key :: (params ++ [body])
  | .functionExpression id params body => id.toList ++ (params ++ [body])
  | .arrowFunctionExpression params body => params ++ [body]
  | .unaryExpression _ argument => [argument]
  | .binaryExpression _ left right | .logicalExpression _ left right
  | .assignmentExpression _ left right => [left, right]
  | .conditionalExpression test consequent alternate => [test, consequent, alternate]
  | .callExpression callee arguments | .newExpression callee arguments => callee :: arguments
  | .memberExpression object property _ => [object, property]
  | .jsxElement openingElement children => openingElement :: children
  | .jsxOpeningElement name attributes _ => name :: attributes
  | .jsxAttribute name value => name :: value.toList
  | .jsxIdentifier .. | .jsxText .. | .unsupported .. => []
  | .jsxExpressionContainer expression => expression.toList

/-! ### Sizes -/

@[simp] theorem sizes_nil : sizes [] = 0 := by simp [sizes]

@[simp] theorem sizes_cons (node : Node) (nodes : List Node) :
    sizes (node :: nodes) = node.size + sizes nodes := by simp [sizes]

@[simp] theorem sizes_append (nodes others : List Node) :
    sizes (nodes ++ others) = sizes nodes + sizes others := by
  induction nodes with
  | nil => simp
  | cons node nodes ih => simp [ih, Nat.add_assoc]

@[simp] theorem sizes_toList (node : Option Node) : sizes node.toList = sizeOr node := by
  cases node <;> simp [sizeOr]

theorem size_le_sizes {node : Node} {nodes : List Node} (h : node ∈ nodes) :
    node.size ≤ sizes nodes := by
  induction nodes with
  | nil => cases h
  | cons first rest ih =>
    rw [sizes_cons]
    rcases List.mem_cons.1 h with rfl | h
    · omega
    · have := ih h
      omega

/-- A tree has one node more than its children together. -/
theorem size_eq (node : Node) : node.size = sizes node.children + 1 := by
  cases node <;> simp [size, children] <;> omega

theorem size_pos (node : Node) : 0 < node.size := by
  rw [size_eq]
  omega

theorem size_of_child {node child : Node} (h : child ∈ node.children) : child.size < node.size := by
  have := size_le_sizes h
  rw [size_eq node]
  omega

/-- A recursion down a tree is the same at all depths that the tree fits into, if each step looks at
smaller trees only. -/
theorem depth_congr {β : Type} {go : (depth : Nat) → Node → β}
    (hstep : ∀ d e node, (∀ m : Node, m.size < node.size → go d m = go e m) →
      go (d + 1) node = go (e + 1) node)
    {node : Node} {d e : Nat} (hd : node.size ≤ d) (he : node.size ≤ e) :
    go d node = go e node :=
  cut_congr size_pos hstep hd he

/-! ### Subtrees -/

/-- The nodes of a tree down to a depth. -/
def subtreesTo : (depth : Nat) → Node → List Node
  | 0, _ => []
  | depth + 1, node => node :: node.children.flatMap (subtreesTo depth)

/-- The nodes of a tree. No path down a tree is longer than the size of the tree. -/
def subtrees (node : Node) : List Node := subtreesTo node.size node

/-- Every depth that is at least the size of the tree gives the same nodes. -/
theorem subtreesTo_eq_subtreesTo {node : Node} {d e : Nat} (hd : node.size ≤ d)
    (he : node.size ≤ e) : subtreesTo d node = subtreesTo e node := by
  refine depth_congr (fun d e node h => ?_) hd he
  rw [subtreesTo, subtreesTo]
  congr 1
  exact List.flatMap_congr fun child hc => h child (size_of_child hc)

/-- The nodes of a tree below its root. -/
def descendants (node : Node) : List Node := node.children.flatMap subtrees

theorem subtrees_eq (node : Node) : node.subtrees = node :: node.descendants := by
  rw [subtrees, subtreesTo_eq_subtreesTo (Nat.le_refl _) (Nat.le_succ _), subtreesTo, descendants]
  congr 1
  exact List.flatMap_congr fun child hc =>
    subtreesTo_eq_subtreesTo (Nat.le_of_lt (size_of_child hc)) (Nat.le_refl _)

theorem mem_descendants_of_child {m child node : Node} (hc : child ∈ node.children)
    (hm : m ∈ child.subtrees) : m ∈ node.descendants :=
  List.mem_flatMap.2 ⟨child, hc, hm⟩

theorem mem_subtrees_self (node : Node) : node ∈ node.subtrees := by
  rw [subtrees_eq]
  exact List.mem_cons_self

theorem mem_descendants_of_mem_children {child node : Node} (hc : child ∈ node.children) :
    child ∈ node.descendants :=
  mem_descendants_of_child hc (mem_subtrees_self child)

theorem mem_subtrees_of_mem_descendants {m node : Node} (hm : m ∈ node.descendants) :
    m ∈ node.subtrees := by
  rw [subtrees_eq]
  exact List.mem_cons_of_mem _ hm

/-- What holds at every node of a tree holds at its root and at every node of its children, and the
other way round. -/
theorem forall_subtrees_iff {p : Node → Prop} {node : Node} :
    (∀ m ∈ node.subtrees, p m) ↔ p node ∧ ∀ child ∈ node.children, ∀ m ∈ child.subtrees, p m := by
  rw [subtrees_eq, List.forall_mem_cons]
  refine and_congr_right fun _ => ⟨fun h child hc m hm => ?_, fun h m hm => ?_⟩
  · exact h m (mem_descendants_of_child hc hm)
  · obtain ⟨child, hc, hm⟩ := List.mem_flatMap.1 hm
    exact h child hc m hm

/-- Induction over trees: a property that passes from the children of a node to the node holds of
every tree. -/
theorem induction_on_children {motive : Node → Prop}
    (h : ∀ node : Node, (∀ child ∈ node.children, motive child) → motive node) (node : Node) :
    motive node := by
  induction hn : node.size using Nat.strongRecOn generalizing node with
  | _ n ih =>
    subst hn
    exact h node fun child hc => ih child.size (size_of_child hc) child rfl

theorem mem_subtrees_trans {k m node : Node} (hk : k ∈ m.subtrees) (hm : m ∈ node.subtrees) :
    k ∈ node.subtrees := by
  induction node using induction_on_children with
  | h node ih =>
    rw [subtrees_eq] at hm
    rcases List.mem_cons.1 hm with rfl | hm
    · exact hk
    · obtain ⟨child, hc, hm⟩ := List.mem_flatMap.1 hm
      exact mem_subtrees_of_mem_descendants (mem_descendants_of_child hc (ih child hc hm))

theorem mem_descendants_of_mem_descendants {k m node : Node} (hk : k ∈ m.descendants)
    (hm : m ∈ node.subtrees) : k ∈ node.descendants := by
  obtain ⟨child, hc, hk⟩ := List.mem_flatMap.1 hk
  rw [subtrees_eq] at hm
  rcases List.mem_cons.1 hm with rfl | hm
  · exact mem_descendants_of_child hc hk
  · obtain ⟨top, htop, hm⟩ := List.mem_flatMap.1 hm
    exact mem_descendants_of_child htop
      (mem_subtrees_trans (mem_subtrees_of_mem_descendants (mem_descendants_of_child hc hk)) hm)

theorem size_le_of_mem_subtrees {m node : Node} (hm : m ∈ node.subtrees) : m.size ≤ node.size := by
  induction node using induction_on_children with
  | h node ih =>
    rw [subtrees_eq] at hm
    rcases List.mem_cons.1 hm with rfl | hm
    · exact Nat.le_refl _
    · obtain ⟨child, hc, hm⟩ := List.mem_flatMap.1 hm
      have := ih child hc hm
      have := size_of_child hc
      omega

theorem size_lt_of_mem_descendants {m node : Node} (hm : m ∈ node.descendants) :
    m.size < node.size := by
  obtain ⟨child, hc, hm⟩ := List.mem_flatMap.1 hm
  have := size_le_of_mem_subtrees hm
  have := size_of_child hc
  omega

end Node

end ScriptForms
