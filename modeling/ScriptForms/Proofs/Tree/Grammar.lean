import ScriptForms.Lowering.Expression
import ScriptForms.Proofs.Node.Text
import ScriptForms.Proofs.Source.Comment
import ScriptForms.Proofs.Tree.Basic

/-!
# What the grammar promises

A tree that a reader gives follows the grammar of the language: the grammar says of the nodes below
a node what can stand there. The rules for syntax trees rely on these promises.

Only kinds of nodes with a rule for syntax trees are told apart. A node of any other kind, such as a
pattern, a class or a comment in the style of HTML, is kept as its text wherever it stands, so that
nothing is promised about the places of such nodes.

* `Tree.Slot`, `Tree.Role`: where a node stands below another one, and what can stand there.
* `Tree.rows`: the promises of the grammar, by the kind of the node above.
* `Tree.FollowsGrammar`: the promises hold at every node of a tree.
-/

namespace ScriptForms.Tree

/-! ### Kinds -/

/-- The kinds of statements. -/
def statementKinds : List String := [
  "expression_statement", "statement_block", "empty_statement", "debugger_statement",
  "return_statement", "throw_statement", "break_statement", "if_statement", "switch_statement",
  "try_statement", "lexical_declaration", "variable_declaration", "function_declaration",
  "import_statement", "export_statement"]

/-- The kinds of names. -/
def nameKinds : List String :=
  ["identifier", "property_identifier", "shorthand_property_identifier"]

/-- The kinds of expressions. -/
def expressionKinds : List String := nameKinds ++ [
  "parenthesized_expression", "this", "null", "undefined", "true", "false", "number", "string",
  "regex", "template_string", "array", "object", "function_expression", "function",
  "arrow_function", "unary_expression", "binary_expression", "assignment_expression",
  "augmented_assignment_expression", "ternary_expression", "call_expression", "new_expression",
  "member_expression", "subscript_expression", "jsx_element", "jsx_self_closing_element"]

/-- The kinds of nodes that have a rule. -/
def ruleKinds : List String :=
  statementKinds ++ expressionKinds ++
    ["spread_element", "jsx_attribute", "jsx_expression", "jsx_text"]

/-! ### Places -/

/-- Where a node stands below another one. -/
inductive Slot where
  /-- Under a field. -/
  | field (name : String)
  /-- Anywhere. -/
  | anywhere
  /-- Behind the first node. -/
  | behindFirst
  /-- Between the tags of an element. -/
  | betweenTags
  deriving DecidableEq

/-- The nodes in a place below a node. -/
def Slot.trees (tree : Tree) : Slot → List Tree
  | .field name => tree.childrenAt name
  | .anywhere => tree.named
  | .behindFirst => tree.named.tail
  | .betweenTags => tree.content

/-- What can stand in a place. -/
inductive Role where
  /-- A node of the given kind, and no other. -/
  | only (kind : String)
  /-- A node whose text is a name. -/
  | word
  /-- One of the given operators. -/
  | operator (operators : List String)
  /-- A node of any kind. -/
  | any
  | statement
  | expression
  /-- An expression or a spread. -/
  | item
  /-- What a function without a name of its own gives: statements or an expression. -/
  | body
  /-- What a declaration binds. -/
  | target
  /-- What an export declares. -/
  | definition
  /-- A child of an element. -/
  | child
  /-- The value of an attribute. -/
  | value
  deriving DecidableEq

namespace Role

/-- The kinds of nodes with a rule that can stand in a place. -/
def kinds : Role → List String
  | .only kind => [kind]
  | .word | .operator _ | .any => ruleKinds
  | .statement => statementKinds
  | .expression => expressionKinds
  | .item => "spread_element" :: expressionKinds
  | .body => "statement_block" :: expressionKinds
  | .target => ["identifier"]
  | .definition => ["function_declaration", "lexical_declaration", "variable_declaration"]
  | .child => ["jsx_text", "jsx_expression", "jsx_element", "jsx_self_closing_element"]
  | .value => ["string", "jsx_expression", "jsx_element", "jsx_self_closing_element"]

end Role

/-- Whether the text of a node can be a name. No name has a hyphen. -/
def isWord (source : List Char) (tree : Tree) : Bool := !(tree.text source).contains '-'

/-- Whether a node can stand in a place of a role. A node that stands for a name spells one. -/
def Role.admits (source : List Char) (role : Role) (tree : Tree) : Bool :=
  (!nameKinds.contains tree.kind || tree.isWord source) &&
    match role with
    | .only kind => tree.kind == kind
    | .word => tree.isWord source
    | .operator operators => operators.contains (String.ofList (tree.text source))
    | role => role.kinds.contains tree.kind || !ruleKinds.contains tree.kind

/-! ### The promises -/

/-- What can stand below a node of a kind. -/
def rows : (kind : String) → List (Slot × Role)
  | "program" | "statement_block" | "else_clause" => [(.anywhere, .statement)]
  | "expression_statement" | "return_statement" | "throw_statement" | "parenthesized_expression"
  | "computed_property_name" | "template_substitution" | "spread_element" =>
    [(.anywhere, .expression)]
  | "if_statement" => [
      (.field "condition", .expression),
      (.field "consequence", .statement),
      (.field "alternative", .only "else_clause")]
  | "switch_statement" => [(.field "value", .expression)]
  | "switch_case" => [(.field "value", .expression), (.field "body", .statement)]
  | "switch_default" => [(.field "body", .statement)]
  | "try_statement" => [
      (.field "body", .only "statement_block"),
      (.field "handler", .only "catch_clause"),
      (.field "finalizer", .only "finally_clause")]
  | "catch_clause" => [(.field "parameter", .target), (.field "body", .only "statement_block")]
  | "finally_clause" => [(.field "body", .only "statement_block")]
  | "variable_declarator" => [(.field "name", .target), (.field "value", .expression)]
  | "function_declaration" | "function_expression" | "function" => [
      (.field "name", .word),
      (.field "parameters", .only "formal_parameters"),
      (.field "body", .only "statement_block")]
  | "arrow_function" => [
      (.field "parameter", .any),
      (.field "parameters", .only "formal_parameters"),
      (.field "body", .body)]
  | "method_definition" => [
      (.field "name", .any),
      (.field "parameters", .only "formal_parameters"),
      (.field "body", .only "statement_block")]
  | "formal_parameters" | "object" => [(.anywhere, .any)]
  | "pair" => [(.field "key", .any), (.field "value", .expression)]
  | "array" | "arguments" | "jsx_expression" => [(.anywhere, .item)]
  | "unary_expression" => [
      (.field "operator", .operator Node.unaryOperators),
      (.field "argument", .expression)]
  | "binary_expression" => [
      (.field "operator", .operator (Source.binaryOperators.map Prod.fst)),
      (.field "left", .expression),
      (.field "right", .expression)]
  | "assignment_expression" => [(.field "left", .expression), (.field "right", .expression)]
  | "augmented_assignment_expression" => [
      (.field "operator", .operator Source.assignmentOperators),
      (.field "left", .expression),
      (.field "right", .expression)]
  | "ternary_expression" => [
      (.field "condition", .expression),
      (.field "consequence", .expression),
      (.field "alternative", .expression)]
  | "call_expression" => [(.field "function", .expression)]
  | "new_expression" => [
      (.field "constructor", .expression), (.field "arguments", .only "arguments")]
  | "member_expression" => [(.field "object", .expression), (.field "property", .word)]
  | "subscript_expression" => [(.field "object", .expression), (.field "index", .expression)]
  | "jsx_element" => [(.betweenTags, .child)]
  | "jsx_attribute" => [(.behindFirst, .value)]
  | "export_statement" => [(.field "declaration", .definition), (.field "value", .expression)]
  | _ => []

/-- Whether what stands below a node can stand there. -/
def isRegular (source : List Char) (tree : Tree) : Bool :=
  (rows tree.kind).all fun row => (row.1.trees tree).all (row.2.admits source)

/-- What stands below any node of the tree can stand there. -/
def Regular (source : List Char) (tree : Tree) : Prop := ∀ t ∈ tree.subtrees, t.isRegular source

/-- The tree of a source that follows the grammar. -/
structure FollowsGrammar (source : List Char) (root : Tree) : Prop where
  isProgram : root.kind = "program"
  regular : root.Regular source
  comments : ∀ t ∈ root.subtrees, t.kind = "comment" → Source.IsCommentText (t.text source)

instance (source : List Char) (tree : Tree) : Decidable (tree.Regular source) :=
  inferInstanceAs (Decidable (∀ t ∈ tree.subtrees, t.isRegular source = true))

theorem followsGrammar_iff {source : List Char} {root : Tree} : root.FollowsGrammar source ↔
    root.kind = "program" ∧ root.Regular source ∧
      ∀ t ∈ root.subtrees, t.kind = "comment" → Source.IsCommentText (t.text source) :=
  ⟨fun h => ⟨h.isProgram, h.regular, h.comments⟩, fun h => ⟨h.1, h.2.1, h.2.2⟩⟩

instance (source : List Char) (root : Tree) : Decidable (root.FollowsGrammar source) :=
  decidable_of_iff _ followsGrammar_iff.symm

/-! ### Using the promises -/

variable {source : List Char} {tree child : Tree}

theorem mem_children_of_mem_trees {slot : Slot} (h : child ∈ slot.trees tree) :
    child ∈ tree.children := by
  cases slot with
  | field name => exact mem_children_of_mem_childrenAt h
  | anywhere => exact mem_children_of_mem_named h
  | behindFirst => exact mem_children_of_mem_named (List.mem_of_mem_tail h)
  | betweenTags => exact mem_children_of_mem_content h

theorem Regular.below (h : tree.Regular source) (hc : child ∈ tree.children) :
    child.Regular source :=
  forall_subtrees_child h hc

/-- What stands in a place is what the grammar promises of it. -/
theorem Regular.admits (h : tree.Regular source) {kind : String} (hk : tree.kind = kind)
    {slot : Slot} {role : Role} (hrow : (slot, role) ∈ rows kind) (hc : child ∈ slot.trees tree) :
    role.admits source child := by
  subst hk
  have hrows := List.all_eq_true.1 (h tree (mem_subtrees_self tree)) _ hrow
  exact List.all_eq_true.1 hrows child hc

/-- Where nodes of one kind can stand, there are no others. -/
theorem Regular.kind_eq (h : tree.Regular source) {kind only : String} (hk : tree.kind = kind)
    (slot : Slot) (hrow : (slot, .only only) ∈ rows kind) (hc : child ∈ slot.trees tree) :
    child.kind = only := by
  have hadmits := h.admits hk hrow hc
  simp only [Role.admits, Bool.and_eq_true, beq_iff_eq] at hadmits
  exact hadmits.2

/-- Where a name stands, it is spelled as one. -/
theorem Regular.isWord (h : tree.Regular source) {kind : String} (hk : tree.kind = kind)
    (slot : Slot) (hrow : (slot, .word) ∈ rows kind) (hc : child ∈ slot.trees tree) :
    child.isWord source := by
  have hadmits := h.admits hk hrow hc
  simp only [Role.admits, Bool.and_eq_true] at hadmits
  exact hadmits.2

/-- Where an operator stands, it is one of those of the grammar. -/
theorem Regular.operator_mem (h : tree.Regular source) {kind : String} {operators : List String}
    (hk : tree.kind = kind) (slot : Slot) (hrow : (slot, .operator operators) ∈ rows kind)
    (hc : child ∈ slot.trees tree) :
    operators.contains (String.ofList (child.text source)) := by
  have hadmits := h.admits hk hrow hc
  simp only [Role.admits, Bool.and_eq_true] at hadmits
  exact hadmits.2

end ScriptForms.Tree
