import ScriptForms.Tree.Basic

/-!
# The nodes below a node

* `Tree.subtrees_eq`: the nodes of a tree are its root and the nodes of its children.
* `Tree.mem_children_of_child?`: what a node has under a field is one of its children.
* `Tree.size_lt_of_mem_children`: a child is smaller than the tree.
-/

namespace ScriptForms.Tree

variable {tree child : Tree}

theorem subtreesAll_eq (trees : List Tree) : subtreesAll trees = trees.flatMap subtrees := by
  induction trees with
  | nil => rfl
  | cons tree trees ih => rw [subtreesAll, ih, List.flatMap_cons]

theorem subtrees_eq (tree : Tree) : tree.subtrees = tree :: tree.children.flatMap subtrees := by
  cases tree
  rw [subtrees, subtreesAll_eq]

theorem mem_subtrees_self (tree : Tree) : tree ∈ tree.subtrees := by
  rw [subtrees_eq]
  exact List.mem_cons_self

theorem mem_subtrees_of_mem_children (h : child ∈ tree.children) : child ∈ tree.subtrees := by
  rw [subtrees_eq]
  exact List.mem_cons_of_mem _ (List.mem_flatMap_of_mem h (mem_subtrees_self child))

/-- What holds of every node of a tree holds of every node of its children. -/
theorem forall_subtrees_child {p : Tree → Prop} (h : ∀ t ∈ tree.subtrees, p t)
    (hc : child ∈ tree.children) : ∀ t ∈ child.subtrees, p t := by
  intro t ht
  refine h t ?_
  rw [subtrees_eq]
  exact List.mem_cons_of_mem _ (List.mem_flatMap_of_mem hc ht)

/-! ### Children -/

theorem mem_children_of_mem_childrenAt {name : String} (h : child ∈ tree.childrenAt name) :
    child ∈ tree.children :=
  (List.mem_filter.1 h).1

theorem mem_children_of_mem_named (h : child ∈ tree.named) : child ∈ tree.children :=
  (List.mem_filter.1 h).1

theorem mem_children_of_mem_content (h : child ∈ tree.content) : child ∈ tree.children :=
  List.mem_of_mem_eraseP (List.mem_of_mem_eraseP (List.mem_filter.1 h).1)

theorem mem_childrenAt_of_child? {name : String} (h : tree.child? name = some child) :
    child ∈ tree.childrenAt name :=
  List.mem_filter.2 ⟨List.mem_of_find?_eq_some h, by simpa using List.find?_some h⟩

theorem mem_children_of_child? {name : String} (h : tree.child? name = some child) :
    child ∈ tree.children :=
  List.mem_of_find?_eq_some h

/-! ### Sizes -/

theorem size_pos (tree : Tree) : 0 < tree.size := by
  cases tree
  exact Nat.succ_pos _

theorem size_le_sizes {trees : List Tree} (h : child ∈ trees) : child.size ≤ sizes trees := by
  induction trees with
  | nil => cases h
  | cons tree trees ih =>
    rw [sizes]
    rcases List.mem_cons.1 h with rfl | h
    · exact Nat.le_add_right ..
    · exact Nat.le_trans (ih h) (Nat.le_add_left ..)

theorem size_lt_of_mem_children (h : child ∈ tree.children) : child.size < tree.size := by
  cases tree
  rw [size]
  exact Nat.lt_succ_of_le (size_le_sizes h)

end ScriptForms.Tree
