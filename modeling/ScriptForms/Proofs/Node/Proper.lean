import ScriptForms.Proofs.Node.Text

/-!
# Trees as they are read

* `Node.Proper`: every node of a tree has fitting children and words of the language, and no node
  has comments above it.
* `Node.ProperIn`: the root is of a class besides.
-/

namespace ScriptForms.Node

/-- Whether a node is as it is read: its children are of the classes that the grammar puts in their
places, its words are those of the language, and there are no comments above it. -/
def isProper (node : Node) : Bool := node.fits && node.isWorded && node.commentLines.isEmpty

/-- Every node of the tree is as it is read. -/
def Proper (node : Node) : Prop := ∀ m ∈ node.subtrees, m.isProper

theorem proper_iff {node : Node} :
    node.Proper ↔ node.isProper ∧ ∀ child ∈ node.children, child.Proper :=
  forall_subtrees_iff

/-- What a node has in a proper tree. -/
theorem Proper.subtree {m node : Node} (h : node.Proper) (hm : m ∈ node.subtrees) :
    m.fits ∧ m.isWorded ∧ m.commentLines = [] := by
  have hproper := h m hm
  simp only [isProper, Bool.and_eq_true, List.isEmpty_iff] at hproper
  exact ⟨hproper.1.1, hproper.1.2, hproper.2⟩

/-- A proper tree whose root is of a class. -/
@[grind =]
def ProperIn (kind : Node → Bool) (node : Node) : Prop := kind node ∧ node.Proper

variable {kind other : Node → Bool} {node : Node}

theorem ProperIn.mono (h : ProperIn kind node) (hk : kind node → other node) :
    ProperIn other node :=
  ⟨hk h.1, h.2⟩

/-- A node of a class is proper if its own texts are as they are read (most nodes have none) and its
children fit and are proper. -/
theorem ProperIn.intro (hk : kind node) (hw : node.isWorded) (hn : node.commentLines = [])
    (h : node.fits ∧ ∀ child ∈ node.children, child.Proper) : ProperIn kind node :=
  ⟨hk, proper_iff.2 ⟨by simp [isProper, h.1, hw, hn], h.2⟩⟩

/-- A node without children is proper as soon as it is so itself. -/
theorem ProperIn.leaf (hk : kind node) (hp : node.isProper) (hc : node.children = []) :
    ProperIn kind node :=
  ⟨hk, proper_iff.2 ⟨hp, by simp [hc]⟩⟩

theorem properIn_unsupported {rule text : String} (hk : kind (.unsupported rule text)) :
    ProperIn kind (.unsupported rule text) :=
  .leaf hk rfl rfl

theorem properIn_identifier {name : String} (hn : '-' ∉ name.toList)
    (hk : kind (.identifier name)) : ProperIn kind (.identifier name) :=
  .leaf hk (by simpa [isProper, fits, isWorded, commentLines] using hn) rfl

theorem all_of_properIn {value : Option Node} (h : ∀ m ∈ value.toList, ProperIn kind m) :
    value.all kind :=
  (Option.all_eq_true kind value).2 fun m hm => (h m (Option.mem_toList.2 hm)).1

/-! ### Classes -/

/-- Elements, and what has no place in the tree. -/
def isElement : Node → Bool
  | .jsxElement .. | .unsupported .. => true
  | _ => false

/-- Expressions and spreads. -/
def isItem (node : Node) : Bool := node.isExpression || node.isSpread

theorem isExpression_of_isElement (h : node.isElement) : node.isExpression := by
  cases node <;> first | rfl | cases h

theorem isAttributeValue_of_isElement (h : node.isElement) : node.isAttributeValue := by
  cases node <;> first | rfl | cases h

theorem isElementChild_of_isElement (h : node.isElement) : node.isElementChild := by
  cases node <;> first | rfl | cases h

theorem isStatement_of_isBlock (h : node.isBlock) : node.isStatement := by
  cases node <;> first | rfl | cases h

theorem isStatement_of_isDefinition (h : node.isDefinition) : node.isStatement := by
  cases node <;> first | rfl | cases h

end ScriptForms.Node
