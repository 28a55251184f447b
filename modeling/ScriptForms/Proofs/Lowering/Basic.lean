import ScriptForms.Proofs.Lowering.Depth
import ScriptForms.Proofs.Node.Place
import ScriptForms.Proofs.Node.Proper
import ScriptForms.Proofs.Tree.Grammar

/-!
# What stands below a node

The rules are sound if the syntax tree of a regular concrete tree is proper and of the class of its
kind. Where the rules are sound below a node, its parts are proper and of the classes of their
places, as the grammar promises.

* `Lowering.classOf`: the class of the syntax trees of a kind of nodes.
* `Tree.Role.class`: the class of the syntax trees in a place.
* `Lowering.Sound`: the invariant of the rules.
* `Lowering.Sound.lowerAt`, `Lowering.Sound.lowerFirst`, ...: one lemma for each way to take a part.
-/

namespace ScriptForms

namespace Node

/-- Strings. -/
def isString : Node → Bool
  | .stringLiteral _ => true
  | _ => false

/-- What has no place in the tree. -/
def isUnsupported : Node → Bool
  | .unsupported .. => true
  | _ => false

variable {node : Node}

theorem isBinding_of_isIdentifier (h : node.isIdentifier) : node.isBinding := by
  cases node <;> first | rfl | cases h

theorem isExpression_of_isKey (h : node.isKey) : node.isExpression := by
  cases node <;> first | rfl | cases h

theorem isExpression_of_isString (h : node.isString) : node.isExpression := by
  cases node <;> first | rfl | cases h

theorem isKey_of_isString (h : node.isString) : node.isKey := by
  cases node <;> first | rfl | cases h

theorem isObjectMember_of_isSpread (h : node.isSpread) : node.isObjectMember := by
  cases node <;> first | rfl | cases h

theorem isAttributeValue_of_isString (h : node.isString) : node.isAttributeValue := by
  cases node <;> first | rfl | cases h

theorem isAttributeValue_of_isContainer (h : node.isContainer) : node.isAttributeValue := by
  cases node <;> first | rfl | cases h

theorem isElementChild_of_isContainer (h : node.isContainer) : node.isElementChild := by
  cases node <;> first | rfl | cases h

theorem isElementChild_of_isText (h : node.isText) : node.isElementChild := by
  cases node <;> first | rfl | cases h

end Node

open Node

/-! ### Classes -/

/-- The class of the syntax trees of a kind of nodes. -/
def Lowering.classOf : (kind : String) → Node → Bool
  | "statement_block" => isBlock
  | "lexical_declaration" | "variable_declaration" | "function_declaration" => isDefinition
  | "identifier" | "property_identifier" | "shorthand_property_identifier" => isIdentifier
  | "number" => isKey
  | "string" => isString
  | "jsx_element" | "jsx_self_closing_element" => isElement
  | "spread_element" => isSpread
  | "jsx_attribute" => isAttribute
  | "jsx_expression" => isContainer
  | "jsx_text" => isText
  | kind =>
    if Tree.statementKinds.contains kind then isStatement
    else if Tree.expressionKinds.contains kind then isExpression
    else isUnsupported

/-- The class of the syntax trees in a place. -/
@[grind =]
def Tree.Role.class : Tree.Role → Node → Bool
  | .only kind, node => Lowering.classOf kind node
  | .word, _ | .operator _, _ | .any, _ => true
  | .statement, node => node.isStatement
  | .expression, node => node.isExpression
  | .item, node => node.isItem
  | .body, node => node.isBlock || node.isExpression
  | .target, node => node.isBinding
  | .definition, node => node.isDefinition
  | .child, node => node.isElementChild
  | .value, node => node.isAttributeValue

namespace Lowering

theorem classOf_of_not_contains {kind : String} (h : Tree.ruleKinds.contains kind = false) :
    classOf kind = isUnsupported := by
  have hstatement : Tree.statementKinds.contains kind = false := by
    simp_all [Tree.ruleKinds]
  have hexpression : Tree.expressionKinds.contains kind = false := by
    simp_all [Tree.ruleKinds]
  unfold classOf
  split
  case h_16 => simp only [hstatement, hexpression, Bool.false_eq_true, if_false]
  all_goals exact absurd h (by decide)

theorem isExpression_of_classOf {kind : String} {node : Node}
    (hk : kind ∈ Tree.expressionKinds) (h : classOf kind node) : node.isExpression := by
  have hdisjoint : ∀ k ∈ Tree.expressionKinds, k ∉ Tree.statementKinds := by decide
  unfold classOf at h
  split at h
  case h_16 =>
    rwa [if_neg (by simpa using hdisjoint kind hk), if_pos (by simpa using hk)] at h
  all_goals first
    | exact absurd hk (by decide)
    | exact isExpression_of_isIdentifier h
    | exact isExpression_of_isKey h
    | exact isExpression_of_isString h
    | exact isExpression_of_isElement h

theorem isStatement_of_classOf {kind : String} {node : Node}
    (hk : kind ∈ Tree.statementKinds) (h : classOf kind node) : node.isStatement := by
  unfold classOf at h
  split at h
  case h_16 => rwa [if_pos (by simpa using hk)] at h
  all_goals first
    | exact absurd hk (by decide)
    | exact isStatement_of_isBlock h
    | exact isStatement_of_isDefinition h

end Lowering

namespace Tree.Role

theorem class_of_isUnsupported (role : Role) {node : Node} (hr : ∀ kind, role ≠ .only kind)
    (h : node.isUnsupported) : role.class node := by
  cases node with
  | unsupported rule text =>
    cases role with
    | only kind => exact absurd rfl (hr kind)
    | _ => rfl
  | _ => cases h

/-- What has the class of a kind that can stand in a place has the class of the place. -/
theorem class_of_classOf {role : Role} {kind : String} {node : Node} (hk : kind ∈ role.kinds)
    (h : Lowering.classOf kind node) : role.class node := by
  cases role with
  | only other =>
    obtain rfl := List.mem_singleton.1 hk
    exact h
  | word | operator | any => rfl
  | statement => exact Lowering.isStatement_of_classOf hk h
  | expression => exact Lowering.isExpression_of_classOf hk h
  | item =>
    rcases List.mem_cons.1 hk with rfl | hk
    · exact Bool.or_eq_true_iff.2 (.inr h)
    · exact Bool.or_eq_true_iff.2 (.inl (Lowering.isExpression_of_classOf hk h))
  | body =>
    rcases List.mem_cons.1 hk with rfl | hk
    · exact Bool.or_eq_true_iff.2 (.inl h)
    · exact Bool.or_eq_true_iff.2 (.inr (Lowering.isExpression_of_classOf hk h))
  | target =>
    obtain rfl := List.mem_singleton.1 hk
    exact isBinding_of_isIdentifier h
  | definition =>
    simp only [kinds, List.mem_cons, List.not_mem_nil, or_false] at hk
    rcases hk with rfl | rfl | rfl <;> exact h
  | child =>
    simp only [kinds, List.mem_cons, List.not_mem_nil, or_false] at hk
    rcases hk with rfl | rfl | rfl | rfl
    · exact isElementChild_of_isText h
    · exact isElementChild_of_isContainer h
    · exact isElementChild_of_isElement h
    · exact isElementChild_of_isElement h
  | value =>
    simp only [kinds, List.mem_cons, List.not_mem_nil, or_false] at hk
    rcases hk with rfl | rfl | rfl | rfl
    · exact isAttributeValue_of_isString h
    · exact isAttributeValue_of_isContainer h
    · exact isAttributeValue_of_isElement h
    · exact isAttributeValue_of_isElement h

theorem class_of_admits {source : List Char} {role : Role} {tree : Tree} {node : Node}
    (ha : role.admits source tree) (h : Lowering.classOf tree.kind node) : role.class node := by
  simp only [admits, Bool.and_eq_true] at ha
  obtain ⟨-, ha⟩ := ha
  split at ha
  · rename_i kind
    rwa [beq_iff_eq.1 ha] at h
  · rfl
  · rfl
  · rename_i hr _ _
    rcases Bool.or_eq_true_iff.1 ha with hk | hk
    · exact class_of_classOf (by simpa using hk) h
    · rw [Lowering.classOf_of_not_contains (by simpa using hk)] at h
      exact class_of_isUnsupported role hr h

/-- A node that stands for a name in some place spells one. -/
theorem isWord_of_admits {source : List Char} {role : Role} {tree : Tree}
    (ha : role.admits source tree) (hk : tree.kind ∈ nameKinds) : tree.isWord source := by
  simp only [admits, Bool.and_eq_true, Bool.or_eq_true] at ha
  rcases ha.1 with hno | hword
  · exact absurd hk (by simpa using hno)
  · exact hword

end Tree.Role

/-! ### Sound rules -/

namespace Lowering

open ScriptForms.Tree

/-- The rules are sound in a source: the syntax tree of a regular concrete tree is proper and of the
class of its kind. -/
def Sound (source : List Char) (lower : Lower) : Prop :=
  ∀ tree : Tree, tree.Regular source → (tree.kind ∈ nameKinds → tree.isWord source) →
    Yields (lower tree) (ProperIn (classOf tree.kind))

variable {source : List Char} {lower : Lower} {tree child : Tree} {kind : String} {role : Role}

namespace Sound

/-- The syntax tree of a node that is no name has the class of its kind. -/
theorem yields_kind (hl : Sound source lower) (ht : tree.Regular source) (hk : tree.kind = kind)
    (hn : kind ∉ nameKinds) : Yields (lower tree) (ProperIn (classOf kind)) := by
  subst hk
  exact hl tree ht fun h => absurd h hn

/-- What stands in a place has the class of the place. -/
theorem yields (hl : Sound source lower) (ht : child.Regular source)
    (ha : role.admits source child) : Yields (lower child) (ProperIn role.class) :=
  (hl child ht fun hk => Role.isWord_of_admits ha hk).imp fun _ h =>
    h.mono (Role.class_of_admits ha)

/-- What stands in a slot has the class that the grammar promises. -/
theorem yields_slot (hl : Sound source lower) (ht : tree.Regular source) (hk : tree.kind = kind)
    {slot : Slot} (hrow : (slot, role) ∈ rows kind) (hc : child ∈ slot.trees tree) :
    Yields (lower child) (ProperIn role.class) :=
  hl.yields (ht.below (mem_children_of_mem_trees hc)) (ht.admits hk hrow hc)

end Sound

/-! ### Parts -/

theorem yields_field {name : String} : Yields (field source tree name) fun child =>
    child ∈ (Slot.field name).trees tree := by
  unfold field
  split
  · rename_i hc
    exact yields_ok (mem_childrenAt_of_child? hc)
  · exact yields_error _

theorem yields_firstNamed (part : String) : Yields (firstNamed source tree part) fun child =>
    child ∈ Slot.anywhere.trees tree := by
  unfold firstNamed
  split
  · rename_i hc
    exact yields_ok (by simp [Slot.trees, hc])
  · exact yields_error _

section Parts

variable (hl : Sound source lower) (ht : tree.Regular source) (hk : tree.kind = kind)
include hl ht hk

theorem yields_lowerAt (role : Role) {name : String} (hrow : (.field name, role) ∈ rows kind) :
    Yields (lowerAt source lower name tree) (ProperIn role.class) :=
  yields_bind yields_field fun _ hc => hl.yields_slot ht hk hrow hc

theorem yields_lowerBlock {name : String}
    (hrow : (.field name, .only "statement_block") ∈ rows kind) :
    Yields (lowerAt source lower name tree) (ProperIn isBlock) :=
  yields_lowerAt hl ht hk (.only "statement_block") hrow

theorem yields_lowerAt? (role : Role) {name : String} (hrow : (.field name, role) ∈ rows kind) :
    Yields (lowerAt? lower name tree) fun value =>
      ∀ node ∈ value.toList, ProperIn role.class node :=
  yields_optionMapM fun _ hc => hl.yields_slot ht hk hrow (mem_childrenAt_of_child? hc)

theorem yields_childrenAt (role : Role) {name : String} (hrow : (.field name, role) ∈ rows kind) :
    Yields ((tree.childrenAt name).mapM lower) fun nodes => ∀ node ∈ nodes,
      ProperIn role.class node :=
  yields_mapM fun _ hc => hl.yields_slot ht hk hrow hc

theorem yields_lowerFirst (role : Role) (part : String) (hrow : (.anywhere, role) ∈ rows kind) :
    Yields (lowerFirst source lower part tree) (ProperIn role.class) :=
  yields_bind (yields_firstNamed part) fun _ hc => hl.yields_slot ht hk hrow hc

theorem yields_lowerFirst? (role : Role) (hrow : (.anywhere, role) ∈ rows kind) :
    Yields (lowerFirst? lower tree) fun value => ∀ node ∈ value.toList, ProperIn role.class node :=
  yields_optionMapM fun _ hc => hl.yields_slot ht hk hrow (List.mem_of_mem_head? hc)

theorem yields_lowerNamed (role : Role) (hrow : (.anywhere, role) ∈ rows kind) :
    Yields (lowerNamed lower tree) fun nodes => ∀ node ∈ nodes, ProperIn role.class node :=
  yields_mapM fun _ hc => hl.yields_slot ht hk hrow hc

end Parts

end Lowering

end ScriptForms
