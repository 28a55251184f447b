import ScriptForms.Node.Access
import ScriptForms.Node.Branch
import ScriptForms.Proofs.Node.Subtree

/-!
# Trees that follow the grammar

A syntax tree that is read from a script has in every place a node of a kind that belongs there.
The kinds fall into classes (`isExpression`, `isStatement`, ...); a construct without a place in the
tree, `unsupported`, belongs to every class that the grammar leaves open.

* `Node.fits`: the children of a node are of the classes that the grammar puts in their places.
* `Node.Grammatical`: this holds at every node of a tree.
* `Node.IsScript`: a grammatical tree whose root is a program.

Where a class has one kind of node only, a member of it is of that kind
(`eq_switchCase_of_isClause`, ...). A child has the class of its place (`placed_of_fits`).
-/

namespace ScriptForms.Node

/-! ### Classes of nodes -/

/-- Expressions. -/
def isExpression : Node → Bool
  | .identifier _ | .thisExpression | .nullLiteral | .booleanLiteral _ | .numericLiteral _
  | .stringLiteral _ | .regExpLiteral .. | .templateLiteral .. | .arrayExpression _
  | .objectExpression _ | .functionExpression .. | .arrowFunctionExpression ..
  | .unaryExpression .. | .binaryExpression .. | .logicalExpression .. | .assignmentExpression ..
  | .conditionalExpression .. | .callExpression .. | .newExpression .. | .memberExpression ..
  | .jsxElement .. | .unsupported .. => true
  | _ => false

/-- Statements, declarations and module items. -/
def isStatement : Node → Bool
  | .expressionStatement .. | .blockStatement _ | .emptyStatement | .debuggerStatement
  | .returnStatement _ | .breakStatement | .throwStatement _ | .ifStatement .. | .switchStatement ..
  | .tryStatement .. | .variableDeclaration .. | .functionDeclaration .. | .importDeclaration ..
  | .exportDefaultDeclaration _ | .exportNamedDeclaration .. | .unsupported .. => true
  | _ => false

/-- What can be bound: a name, or a pattern that has no place in the tree. -/
def isBinding : Node → Bool
  | .identifier _ | .unsupported .. => true
  | _ => false

/-- Names. -/
def isIdentifier : Node → Bool
  | .identifier _ => true
  | _ => false

/-- Spreads. -/
def isSpread : Node → Bool
  | .spreadElement _ => true
  | _ => false

/-- Blocks. -/
def isBlock : Node → Bool
  | .blockStatement _ => true
  | _ => false

/-- The clauses of a `switch`. -/
def isClause : Node → Bool
  | .switchCase .. => true
  | _ => false

/-- Whether a node is a clause that is taken by default. -/
def isDefaultClause : Node → Bool
  | .switchCase none _ => true
  | _ => false

/-- The handlers of a `try`. -/
def isHandler : Node → Bool
  | .catchClause .. => true
  | _ => false

/-- The parts of a variable declaration. -/
def isDeclarator : Node → Bool
  | .variableDeclarator .. => true
  | _ => false

/-- What an export can declare. -/
def isDefinition : Node → Bool
  | .variableDeclaration .. | .functionDeclaration .. | .unsupported .. => true
  | _ => false

/-- The names of an import. -/
def isImportName : Node → Bool
  | .importSpecifier .. | .importDefaultSpecifier _ | .importNamespaceSpecifier _ => true
  | _ => false

/-- The names of an export. -/
def isExportName : Node → Bool
  | .exportSpecifier .. => true
  | _ => false

/-- The keys of an object that are not computed. -/
def isKey : Node → Bool
  | .identifier _ | .stringLiteral _ | .numericLiteral _ | .unsupported .. => true
  | _ => false

/-- The members of an object. -/
def isObjectMember : Node → Bool
  | .objectProperty .. | .objectMethod .. | .spreadElement _ | .unsupported .. => true
  | _ => false

/-- The openings of elements. -/
def isOpening : Node → Bool
  | .jsxOpeningElement .. => true
  | _ => false

/-- The tags of elements. -/
def isTag : Node → Bool
  | .jsxIdentifier _ | .unsupported .. => true
  | _ => false

/-- The attributes of elements. -/
def isAttribute : Node → Bool
  | .jsxAttribute .. | .unsupported .. => true
  | _ => false

/-- The values of attributes. -/
def isAttributeValue : Node → Bool
  | .stringLiteral _ | .jsxExpressionContainer _ | .jsxElement .. | .unsupported .. => true
  | _ => false

/-- The children of elements. -/
def isElementChild : Node → Bool
  | .jsxText _ | .jsxExpressionContainer _ | .jsxElement .. | .unsupported .. => true
  | _ => false

/-! ### Places -/

/-- Whether a key belongs where it stands. -/
def keyFits (key : Node) (computed : Bool) : Bool :=
  if computed then key.isExpression else key.isKey

/-- Whether the children of a node are of the classes that the grammar puts in their places. -/
def fits : Node → Bool
  | .program body | .blockStatement body => body.all isStatement
  | .expressionStatement expression _ => expression.isExpression
  | .returnStatement argument => argument.all isExpression
  | .throwStatement argument | .spreadElement argument | .unaryExpression _ argument =>
    argument.isExpression
  | .ifStatement test consequent alternate =>
    test.isExpression && consequent.isStatement && alternate.all isStatement
  | .switchStatement discriminant cases => discriminant.isExpression && cases.all isClause
  | .switchCase test consequent => test.all isExpression && consequent.all isStatement
  | .tryStatement block handler finalizer =>
    block.isBlock && handler.all isHandler && finalizer.all isBlock
  | .catchClause param body => param.all isBinding && body.isBlock
  | .variableDeclaration _ declarations => declarations.all isDeclarator
  | .variableDeclarator id init => id.isBinding && init.all isExpression
  | .functionDeclaration id params body => id.isBinding && params.all isBinding && body.isBlock
  | .importDeclaration specifiers _ => specifiers.all isImportName
  | .exportDefaultDeclaration declaration => declaration.isDefinition || declaration.isExpression
  | .exportNamedDeclaration (some declaration) specifiers =>
    declaration.isDefinition && specifiers.isEmpty
  | .exportNamedDeclaration none specifiers => specifiers.all isExportName
  | .templateLiteral texts expressions =>
    expressions.all isExpression && texts.length == expressions.length + 1
  | .arrayExpression elements => elements.all fun node => node.isExpression || node.isSpread
  | .objectExpression properties => properties.all isObjectMember
  | .objectProperty key value computed _ => key.keyFits computed && value.isExpression
  | .objectMethod _ key params body computed =>
    key.keyFits computed && params.all isBinding && body.isBlock
  | .functionExpression id params body => id.all isBinding && params.all isBinding && body.isBlock
  | .arrowFunctionExpression params body =>
    params.all isBinding && (body.isBlock || body.isExpression)
  | .binaryExpression _ left right | .logicalExpression _ left right
  | .assignmentExpression _ left right => left.isExpression && right.isExpression
  | .conditionalExpression test consequent alternate =>
    test.isExpression && consequent.isExpression && alternate.isExpression
  | .callExpression callee arguments | .newExpression callee arguments =>
    callee.isExpression && arguments.all fun node => node.isExpression || node.isSpread
  | .memberExpression object property computed =>
    object.isExpression && if computed then property.isExpression else property.isIdentifier
  | .jsxElement openingElement children => openingElement.isOpening && children.all isElementChild
  | .jsxOpeningElement name attributes _ => name.isTag && attributes.all isAttribute
  | .jsxAttribute name value => name.isTag && value.all isAttributeValue
  | .jsxExpressionContainer expression =>
    expression.all fun node => node.isExpression || node.isSpread
  | _ => true

/-- Whether a node has forms of its own, apart from its parent. -/
def standsAlone (node : Node) : Bool :=
  node.isExpression || node.isStatement || node.isElementChild || node.isAttributeValue ||
    node.isTag

theorem standsAlone_of_isExpression {node : Node} (h : node.isExpression) : node.standsAlone := by
  simp [standsAlone, h]

theorem standsAlone_of_isStatement {node : Node} (h : node.isStatement) : node.standsAlone := by
  simp [standsAlone, h]

theorem standsAlone_of_isBlock {node : Node} (h : node.isBlock) : node.standsAlone := by
  cases node <;> simp_all [isBlock, standsAlone, isStatement]

theorem standsAlone_of_isIdentifier {node : Node} (h : node.isIdentifier) : node.standsAlone := by
  cases node <;> simp_all [isIdentifier, standsAlone, isExpression]

theorem isExpression_of_isIdentifier {node : Node} (h : node.isIdentifier) : node.isExpression := by
  cases node <;> first | rfl | cases h

theorem isSpread_of_isExpression {node : Node} (h : node.isExpression) : node.isSpread = false := by
  cases node <;> first | rfl | cases h

/-- Where an expression or a spread may stand, what is no spread is an expression. -/
theorem isExpression_of_ne_spread {node : Node} (h : node.isExpression ∨ node.isSpread)
    (hne : ∀ argument, node ≠ .spreadElement argument) : node.isExpression := by
  rcases h with he | hs
  · exact he
  · cases node with
    | spreadElement argument => exact absurd rfl (hne argument)
    | _ => cases hs

/-! ### Classes of a single kind -/

theorem eq_identifier_of_isIdentifier {node : Node} (h : node.isIdentifier) :
    ∃ name, node = .identifier name := by
  cases node with
  | identifier name => exact ⟨name, rfl⟩
  | _ => cases h

theorem eq_switchCase_of_isClause {node : Node} (h : node.isClause) :
    ∃ test consequent, node = .switchCase test consequent := by
  cases node with
  | switchCase test consequent => exact ⟨test, consequent, rfl⟩
  | _ => cases h

theorem eq_catchClause_of_isHandler {node : Node} (h : node.isHandler) :
    ∃ param body, node = .catchClause param body := by
  cases node with
  | catchClause param body => exact ⟨param, body, rfl⟩
  | _ => cases h

theorem eq_variableDeclarator_of_isDeclarator {node : Node} (h : node.isDeclarator) :
    ∃ id init, node = .variableDeclarator id init := by
  cases node with
  | variableDeclarator id init => exact ⟨id, init, rfl⟩
  | _ => cases h

theorem eq_variableDeclaration_of_isDeclaration {node : Node} (h : node.isDeclaration) :
    ∃ kind declarations, node = .variableDeclaration kind declarations := by
  cases node with
  | variableDeclaration kind declarations => exact ⟨kind, declarations, rfl⟩
  | _ => cases h

theorem eq_jsxOpeningElement_of_isOpening {node : Node} (h : node.isOpening) :
    ∃ name attributes selfClosing, node = .jsxOpeningElement name attributes selfClosing := by
  cases node with
  | jsxOpeningElement name attributes selfClosing => exact ⟨name, attributes, selfClosing, rfl⟩
  | _ => cases h

/-- Every node of the tree has fitting children. -/
def Grammatical (node : Node) : Prop := ∀ m ∈ node.subtrees, m.fits

/-- Whether a node is the root of a script. -/
def isProgram : Node → Bool
  | .program _ => true
  | _ => false

/-- A tree as it is read from a script. -/
def IsScript (node : Node) : Prop := node.isProgram ∧ node.Grammatical

theorem grammatical_iff {node : Node} :
    node.Grammatical ↔ node.fits ∧ ∀ child ∈ node.children, child.Grammatical :=
  forall_subtrees_iff

theorem Grammatical.child {child node : Node} (h : node.Grammatical)
    (hc : child ∈ node.children) : child.Grammatical :=
  (grammatical_iff.1 h).2 child hc

/-- The classes of the nodes that stand elsewhere than directly below a `switch`. -/
def placedClasses : List (Node → Bool) :=
  [isExpression, isStatement, isBinding, isIdentifier, isSpread, isBlock, isHandler, isDeclarator,
    isDefinition, isImportName, isExportName, isKey, isObjectMember, isOpening, isTag, isAttribute,
    isAttributeValue, isElementChild]

/-- Where the children of a node fit, each of them has a class; clauses stand in a `switch` only. -/
theorem placed_of_fits {child node : Node} (h : node.fits) (hc : child ∈ node.children) :
    placedClasses.any (· child) ∨
      child.isClause ∧ ∃ discriminant cases, node = .switchStatement discriminant cases := by
  by_contra hnot
  simp only [placedClasses, List.any_cons, List.any_nil, not_or, Bool.or_eq_true, Bool.or_false,
    Bool.not_eq_true] at hnot
  obtain ⟨hplaced, hclause⟩ := hnot
  cases node with
  | exportNamedDeclaration declaration specifiers =>
    cases declaration <;> simp only [children, fits] at hc h <;> grind
  | _ =>
    simp only [children, fits, keyFits] at hc h
    grind

/-- The grammar puts a program in no place below a node. -/
theorem Grammatical.not_isProgram_child {child node : Node} (h : node.Grammatical)
    (hc : child ∈ node.children) : child.isProgram = false := by
  cases child with
  | program body =>
    rcases placed_of_fits (grammatical_iff.1 h).1 hc with hplaced | ⟨hclause, -⟩
    · cases hplaced
    · cases hclause
  | _ => rfl

theorem Grammatical.not_isProgram_descendant {m node : Node} (h : node.Grammatical)
    (hm : m ∈ node.descendants) : m.isProgram = false := by
  induction node using induction_on_children with
  | h node ih =>
    obtain ⟨child, hc, hm⟩ := List.mem_flatMap.1 hm
    rw [subtrees_eq] at hm
    rcases List.mem_cons.1 hm with rfl | hm
    · exact h.not_isProgram_child hc
    · exact ih child hc (h.child hc) hm

theorem Grammatical.subtree {m node : Node} (h : node.Grammatical) (hm : m ∈ node.subtrees) :
    m.Grammatical :=
  fun _ hk => h _ (mem_subtrees_trans hk hm)

theorem Grammatical.descendants {m node : Node} (h : node.Grammatical) (hm : m ∈ node.descendants) :
    m.Grammatical :=
  h.subtree (mem_subtrees_of_mem_descendants hm)

end ScriptForms.Node
