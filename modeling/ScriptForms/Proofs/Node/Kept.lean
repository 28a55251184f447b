import ScriptForms.Proofs.Node.Text

/-!
# The nodes that a conversion keeps

Every node of an accepted tree has a part in the forms of the tree, with one exception: a clause of
a `switch` that has no statements of its own and shares the body of the default clause has no use
for its test, since the default is taken anyway.

* `Node.kept`: the nodes below a node that have a part in its forms.
* `Node.keptNodes`: every node of a tree that has a part in the forms of the tree.
-/

namespace ScriptForms.Node

/-! ### Clauses -/

/-- Whether a clause without statements shares the body of a default clause, given the clauses
behind it. -/
def leadsToDefault : List Node → Bool
  | .switchCase none _ :: _ => true
  | .switchCase (some _) [] :: rest => leadsToDefault rest
  | _ => false

/-- The tests and statements of clauses, without the tests that lead to a default clause. -/
def keptClauses : List Node → List Node
  | [] => []
  | .switchCase test [] :: rest =>
    (if leadsToDefault rest then [] else test.toList) ++ keptClauses rest
  | .switchCase test consequent :: rest => test.toList ++ (consequent ++ keptClauses rest)
  | node :: rest => node :: keptClauses rest

theorem mem_keptClauses {m : Node} {cases : List Node} (h : m ∈ keptClauses cases) :
    ∃ clause ∈ cases, m ∈ clause.subtrees := by
  fun_induction keptClauses cases with
  | case1 => cases h
  | case2 test rest ih =>
    rcases List.mem_append.1 h with h | h
    · have hm : m ∈ (Node.switchCase test []).children := by
        split at h
        · cases h
        · simpa [children] using h
      exact ⟨_, List.mem_cons_self,
        mem_subtrees_of_mem_descendants (mem_descendants_of_mem_children hm)⟩
    · obtain ⟨clause, hc, hm⟩ := ih h
      exact ⟨clause, List.mem_cons_of_mem _ hc, hm⟩
  | case3 test consequent rest _ ih =>
    rw [← List.append_assoc] at h
    rcases List.mem_append.1 h with h | h
    · exact ⟨_, List.mem_cons_self,
        mem_subtrees_of_mem_descendants (mem_descendants_of_mem_children h)⟩
    · obtain ⟨clause, hc, hm⟩ := ih h
      exact ⟨clause, List.mem_cons_of_mem _ hc, hm⟩
  | case4 node rest _ _ ih =>
    rcases List.mem_cons.1 h with rfl | h
    · exact ⟨_, List.mem_cons_self, mem_subtrees_self _⟩
    · obtain ⟨clause, hc, hm⟩ := ih h
      exact ⟨clause, List.mem_cons_of_mem _ hc, hm⟩

/-! ### Trees -/

/-- The nodes below a node that have a part in its forms. -/
def kept : Node → List Node
  | .switchStatement discriminant cases => discriminant :: keptClauses cases
  | node => node.children

theorem mem_descendants_of_mem_kept {m node : Node} (h : m ∈ node.kept) :
    m ∈ node.descendants := by
  unfold kept at h
  split at h
  · rename_i discriminant cases
    rcases List.mem_cons.1 h with rfl | h
    · exact mem_descendants_of_mem_children (by simp [children])
    · obtain ⟨clause, hc, hm⟩ := mem_keptClauses h
      exact mem_descendants_of_child (by simp [children, hc]) hm
  · exact mem_descendants_of_mem_children h

/-- The nodes of a tree that have a part in its forms, down to a depth. -/
def keptNodesTo : (depth : Nat) → Node → List Node
  | 0, _ => []
  | depth + 1, node => node :: node.kept.flatMap (keptNodesTo depth)

/-- The nodes of a tree that have a part in its forms. No path down a tree is longer than the size
of the tree. -/
def keptNodes (node : Node) : List Node := keptNodesTo node.size node

theorem size_of_kept {m node : Node} (h : m ∈ node.kept) : m.size < node.size :=
  size_lt_of_mem_descendants (mem_descendants_of_mem_kept h)

theorem keptNodesTo_eq_keptNodesTo {node : Node} {d e : Nat} (hd : node.size ≤ d)
    (he : node.size ≤ e) : keptNodesTo d node = keptNodesTo e node := by
  refine depth_congr (fun d e node h => ?_) hd he
  rw [keptNodesTo, keptNodesTo]
  congr 1
  exact List.flatMap_congr fun m hm => h m (size_of_kept hm)

theorem keptNodes_eq (node : Node) : node.keptNodes = node :: node.kept.flatMap keptNodes := by
  rw [keptNodes, keptNodesTo_eq_keptNodesTo (Nat.le_refl _) (Nat.le_succ _), keptNodesTo]
  congr 1
  exact List.flatMap_congr fun m hm =>
    keptNodesTo_eq_keptNodesTo (Nat.le_of_lt (size_of_kept hm)) (Nat.le_refl _)

theorem mem_subtrees_of_mem_keptNodes {m node : Node} (h : m ∈ node.keptNodes) :
    m ∈ node.subtrees := by
  induction hn : node.size using Nat.strongRecOn generalizing node with
  | _ n ih =>
    rw [keptNodes_eq] at h
    rcases List.mem_cons.1 h with rfl | h
    · exact mem_subtrees_self _
    · obtain ⟨k, hk, hm⟩ := List.mem_flatMap.1 h
      have hsize := size_of_kept hk
      exact mem_subtrees_trans (ih k.size (by omega) hm rfl)
        (mem_subtrees_of_mem_descendants (mem_descendants_of_mem_kept hk))

/-! ### Trees that are kept whole -/

/-- Whether one of the clauses has a test that leads to a default clause. -/
def hasIdleClause : List Node → Bool
  | [] => false
  | .switchCase (some _) [] :: rest => leadsToDefault rest || hasIdleClause rest
  | _ :: rest => hasIdleClause rest

/-- Whether a node is a `switch` with a test that leads to a default clause. -/
def hasIdleTest : Node → Bool
  | .switchStatement _ cases => hasIdleClause cases
  | _ => false

theorem keptClauses_of_not_idle {cases : List Node} (hc : ∀ c ∈ cases, c.isClause)
    (h : ¬hasIdleClause cases) : keptClauses cases = cases.flatMap children := by
  induction cases with
  | nil => rfl
  | cons node rest ih =>
    rw [List.forall_mem_cons] at hc
    obtain ⟨test, consequent, rfl⟩ := eq_switchCase_of_isClause hc.1
    cases consequent with
    | nil =>
      cases test with
      | none =>
        rw [hasIdleClause] at h
        · simp [keptClauses, children, ih hc.2 h]
        · simp
      | some test =>
        simp only [hasIdleClause, Bool.or_eq_true, not_or] at h
        simp [keptClauses, children, h.1, ih hc.2 h.2]
    | cons statement others =>
      rw [hasIdleClause] at h
      · simp [keptClauses, children, ih hc.2 h]
      · simp

/-- What no clause has is counted in clauses as it is below them. -/
theorem countP_clauses {p : Node → Bool} (hp : ∀ m : Node, m.isClause → ¬p m) {cases : List Node}
    (hc : ∀ c ∈ cases, c.isClause) :
    ((cases.flatMap children).flatMap subtrees).countP p = (cases.flatMap subtrees).countP p := by
  induction cases with
  | nil => rfl
  | cons clause rest ih =>
    rw [List.forall_mem_cons] at hc
    rw [List.flatMap_cons, List.flatMap_cons, List.flatMap_append, List.countP_append,
      List.countP_append, ih hc.2, subtrees_eq, List.countP_cons_of_neg (hp clause hc.1)]
    rfl

/-- Without a test that leads to a default clause, all nodes of a tree are kept but the clauses
themselves. -/
theorem countP_keptNodes {p : Node → Bool} (hp : ∀ m : Node, m.isClause → ¬p m) {node : Node}
    (hg : node.Grammatical) (h : ∀ m ∈ node.subtrees, ¬m.hasIdleTest) :
    node.keptNodes.countP p = node.subtrees.countP p := by
  induction hn : node.size using Nat.strongRecOn generalizing node with
  | _ n ih =>
    have hcount : ∀ nodes : List Node, (∀ m ∈ nodes, m ∈ node.descendants) →
        (nodes.flatMap keptNodes).countP p = (nodes.flatMap subtrees).countP p := by
      intro nodes hm
      rw [List.countP_flatMap, List.countP_flatMap]
      congr 1
      refine List.map_congr_left fun m hmem => ?_
      have hd := hm m hmem
      exact ih m.size (hn ▸ size_lt_of_mem_descendants hd) (hg.descendants hd)
        (fun k hk => h k (mem_subtrees_trans hk (mem_subtrees_of_mem_descendants hd))) rfl
    have hkept : (node.kept.flatMap subtrees).countP p = node.descendants.countP p := by
      unfold kept
      split
      · rename_i discriminant cases
        have hidle : ¬hasIdleClause cases := h _ (mem_subtrees_self _)
        have hfits := (grammatical_iff.1 hg).1
        simp only [fits, Bool.and_eq_true, List.all_eq_true] at hfits
        rw [keptClauses_of_not_idle hfits.2 hidle, List.flatMap_cons, List.countP_append,
          countP_clauses hp hfits.2, ← List.countP_append, ← List.flatMap_cons]
        rfl
      · rfl
    rw [keptNodes_eq, subtrees_eq, List.countP_cons, List.countP_cons,
      hcount _ fun m hm => mem_descendants_of_mem_kept hm, hkept]

end ScriptForms.Node
