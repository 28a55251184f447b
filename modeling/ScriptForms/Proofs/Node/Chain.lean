import ScriptForms.Proofs.Node.Grammar

/-!
# Chains, branches and clauses of grammatical trees

The rules look into a tree along chains of accesses, calls and conditions, and open the block at the
end of a clause. What they find there are again grammatical trees, smaller than the tree itself.

* `Node.rebindReceiver` keeps size, class and grammar.
* `Node.dotChain`, `Node.callChain`, `Node.branches`, `Node.openLastBlock` give subtrees.
* `Node.callChain_induction`, `Node.branches_induction`: induction along the chains.
* `Node.congr_clauseBody`: what the body of a clause has in common with its statements.
-/

namespace ScriptForms.Node

/-! ### Accesses -/

theorem size_rebindReceiver (name : String) (node : Node) :
    (node.rebindReceiver name).size = node.size := by
  induction node using rebindReceiver.induct with
  | case1 => simp [rebindReceiver, size]
  | case2 object property computed ih => simp [rebindReceiver, size, ih]
  | case3 node h₁ h₂ => rw [rebindReceiver]; exacts [h₁, h₂]

theorem isExpression_rebindReceiver (name : String) (node : Node) :
    (node.rebindReceiver name).isExpression = node.isExpression := by
  cases node <;> simp [rebindReceiver, isExpression]

theorem Grammatical.rebindReceiver {node : Node} (name : String) (h : node.Grammatical) :
    (node.rebindReceiver name).Grammatical := by
  induction node using Node.rebindReceiver.induct with
  | case1 =>
    rw [Node.rebindReceiver, grammatical_iff]
    simp [fits, children]
  | case2 object property computed ih =>
    have hc := grammatical_iff.1 h
    simp only [fits, children, List.forall_mem_cons, Bool.and_eq_true] at hc
    rw [Node.rebindReceiver, grammatical_iff]
    simp only [fits, children, List.forall_mem_cons, Bool.and_eq_true, isExpression_rebindReceiver]
    exact ⟨hc.1, ih hc.2.1, hc.2.2⟩
  | case3 node h₁ h₂ =>
    rw [Node.rebindReceiver]
    exacts [h, h₁, h₂]

/-- The target of a chain of dotted accesses is a subtree. -/
theorem dotChain_target_mem (node : Node) : node.dotChain.1 ∈ node.subtrees := by
  induction node using dotChain.induct with
  | case1 object property target properties hd ih =>
    rw [dotChain]
    exact mem_subtrees_of_mem_descendants (mem_descendants_of_child (by simp [children]) ih)
  | case2 node h =>
    rw [dotChain]
    exacts [mem_subtrees_self node, h]

/-- The target of a chain of at least one dotted access lies below the chain. -/
theorem dotChain_target_descendants (object property : Node) :
    (Node.memberExpression object property false).dotChain.1 ∈
      (Node.memberExpression object property false).descendants := by
  rw [dotChain]
  exact mem_descendants_of_child (by simp [children]) (dotChain_target_mem object)

theorem dotChain_properties_mem (node : Node) :
    ∀ property ∈ node.dotChain.2, property ∈ node.descendants := by
  induction node using dotChain.induct with
  | case1 object property target properties hd ih =>
    rw [dotChain]
    intro p hm
    rcases List.mem_append.1 hm with hm | hm
    · exact mem_descendants_of_child (by simp [children])
        (mem_subtrees_of_mem_descendants (ih p hm))
    · rw [List.mem_singleton.1 hm]
      exact mem_descendants_of_mem_children (by simp [children])
  | case2 node h =>
    rw [dotChain]
    · simp
    · exact h

/-- The target of a chain of dotted accesses in a grammatical tree is an expression, and the steps
of the chain are names. -/
theorem dotChain_fits {node : Node} (h : node.Grammatical) (he : node.isExpression) :
    node.dotChain.1.isExpression ∧ ∀ property ∈ node.dotChain.2, property.isIdentifier := by
  induction node using dotChain.induct with
  | case1 object property target properties hd ih =>
    have hc := grammatical_iff.1 h
    simp only [fits, children, List.forall_mem_cons, Bool.and_eq_true] at hc
    obtain ⟨ht, hp⟩ := ih hc.2.1 hc.1.1
    rw [dotChain]
    refine ⟨ht, fun p hm => ?_⟩
    rcases List.mem_append.1 hm with hm | hm
    · exact hp p hm
    · rw [List.mem_singleton.1 hm]
      exact hc.1.2
  | case2 node hn =>
    rw [dotChain]
    exacts [⟨he, by simp⟩, hn]

/-! ### Calls -/

/-- Every link of a chain of calls is a call of the tree. -/
theorem callChain_mem {node : Node} {link : CallLink} (h : link ∈ node.callChain) :
    .callExpression link.callee link.arguments ∈ node.subtrees := by
  induction node using callChain.induct with
  | case1 callee inner property arguments ih =>
    rw [callChain] at h
    rcases List.mem_append.1 h with h | h
    · have hmember : Node.callExpression link.callee link.arguments ∈
          (Node.memberExpression (.callExpression callee inner) property false).descendants :=
        mem_descendants_of_child (by simp [children]) (ih h)
      exact mem_subtrees_of_mem_descendants
        (mem_descendants_of_child (by simp [children]) (mem_subtrees_of_mem_descendants hmember))
    · rw [List.mem_singleton.1 h]
      exact mem_subtrees_self _
  | case2 callee arguments hn =>
    rw [callChain] at h
    · rw [List.mem_singleton.1 h]
      exact mem_subtrees_self _
    · exact hn
  | case3 node h₁ h₂ =>
    rw [callChain] at h
    · cases h
    · exact h₁
    · exact h₂

/-- A call starts a chain, and every later link of the chain is a dotted access. -/
theorem callChain_eq_cons (callee : Node) (arguments : List Node) :
    ∃ first others, (Node.callExpression callee arguments).callChain = first :: others ∧
      ∀ link ∈ others, ∃ object property,
        link.callee = .memberExpression object property false := by
  induction hn : Node.callExpression callee arguments using callChain.induct
    generalizing callee arguments with
  | case1 callee' inner property arguments' ih =>
    obtain ⟨first, others, hchain, hlater⟩ := ih callee' inner rfl
    refine ⟨first, others ++ [⟨.memberExpression (.callExpression callee' inner) property false,
      arguments'⟩], by rw [callChain, hchain, List.cons_append], fun link hl => ?_⟩
    rcases List.mem_append.1 hl with hl | hl
    · exact hlater link hl
    · rw [List.mem_singleton.1 hl]
      exact ⟨_, _, rfl⟩
  | case2 callee' arguments' hne =>
    refine ⟨⟨callee', arguments'⟩, [], ?_, by simp⟩
    rw [callChain]
    exact hne
  | case3 node h₁ h₂ => exact absurd hn.symm (h₂ callee arguments)

/-- Induction along a chain of calls, from its first call on. A call of a method of a call adds a
link. -/
theorem callChain_induction {motive : Node → CallLink → List CallLink → Prop}
    (call : ∀ callee arguments, motive (.callExpression callee arguments) ⟨callee, arguments⟩ [])
    (method : ∀ callee inner property arguments first others,
      motive (.callExpression callee inner) first others →
        motive
          (.callExpression (.memberExpression (.callExpression callee inner) property false)
            arguments)
          first
          (others ++
            [⟨.memberExpression (.callExpression callee inner) property false, arguments⟩]))
    {node : Node} {first : CallLink} {others : List CallLink}
    (h : node.callChain = first :: others) : motive node first others := by
  induction node using callChain.induct generalizing others with
  | case1 callee inner property arguments ih =>
    obtain ⟨first', links, hlinks, -⟩ := callChain_eq_cons callee inner
    rw [callChain, hlinks, List.cons_append] at h
    obtain ⟨rfl, rfl⟩ := List.cons.inj h
    exact method callee inner property arguments first' links (ih hlinks)
  | case2 callee arguments hne =>
    rw [callChain] at h
    · obtain ⟨rfl, rfl⟩ := List.cons.inj h
      exact call callee arguments
    · exact hne
  | case3 node h₁ h₂ =>
    rw [callChain] at h
    · cases h
    · exact h₁
    · exact h₂

/-- In a grammatical call of a method the object is grammatical, and the method is a name. -/
theorem Grammatical.method {object property : Node} {arguments : List Node}
    (hg : (Node.callExpression (.memberExpression object property false) arguments).Grammatical) :
    object.Grammatical ∧ property.isIdentifier := by
  have hmember : (Node.memberExpression object property false).Grammatical :=
    hg.child (by simp [children])
  have hfits := (grammatical_iff.1 hmember).1
  simp only [fits, Bool.and_eq_true] at hfits
  exact ⟨hmember.child (by simp [children]), hfits.2⟩

/-! ### Branches -/

/-- Induction along a chain of conditions: the last `else`, an `if` without one, and an `if` with
more of the chain behind it. -/
theorem branches_induction {motive : Node → List Branch → Prop}
    (other : ∀ node, (∀ test consequent alternate, node ≠ .ifStatement test consequent alternate) →
      motive node [⟨none, node⟩])
    (last : ∀ test consequent,
      motive (.ifStatement test consequent none) [⟨some test, consequent⟩])
    (next : ∀ test consequent alternate, motive alternate alternate.branches →
      motive (.ifStatement test consequent (some alternate))
        (⟨some test, consequent⟩ :: alternate.branches))
    (node : Node) : motive node node.branches := by
  induction node using induction_on_children with
  | h node ih =>
    cases node with
    | ifStatement test consequent alternate =>
      rw [branches]
      cases alternate with
      | none => exact last test consequent
      | some alternate => exact next test consequent alternate (ih alternate (by simp [children]))
    | _ => exact other _ fun _ _ _ h => by cases h

/-- What holds of every node of a chain of conditions carries over to its branches: from each `if`
to its test and its body, and to the last `else`. -/
theorem branches_forall {p q r : Node → Prop} {node : Node}
    (hif : ∀ test consequent alternate, p (.ifStatement test consequent alternate) →
      r test ∧ q consequent ∧ ∀ a ∈ alternate, p a)
    (helse : ∀ m, (∀ test consequent alternate, m ≠ .ifStatement test consequent alternate) →
      p m → q m) (h : p node) :
    ∀ branch ∈ node.branches, q branch.body ∧ ∀ test ∈ branch.test, r test := by
  refine branches_induction (motive := fun node branches => p node →
    ∀ branch ∈ branches, q branch.body ∧ ∀ test ∈ branch.test, r test)
    (fun m hne hp => ?_) (fun test consequent hp => ?_) (fun test consequent alternate ih hp => ?_)
    node h
  · intro branch hb
    rw [List.mem_singleton.1 hb]
    exact ⟨helse _ hne hp, by simp⟩
  · obtain ⟨ht, hc, -⟩ := hif test consequent none hp
    simpa using ⟨hc, ht⟩
  · obtain ⟨ht, hc, ha⟩ := hif test consequent (some alternate) hp
    exact List.forall_mem_cons.2 ⟨⟨hc, by simpa using ht⟩, ih (ha alternate rfl)⟩

/-- The bodies of a chain of conditions are statements below the chain, and its tests are
expressions below it. -/
theorem branches_fit {test consequent : Node} {alternate : Option Node}
    (hg : (Node.ifStatement test consequent alternate).Grammatical) :
    ∀ branch ∈ (Node.ifStatement test consequent alternate).branches,
      (branch.body ∈ (Node.ifStatement test consequent alternate).descendants ∧
        branch.body.isStatement) ∧
      ∀ t ∈ branch.test, t ∈ (Node.ifStatement test consequent alternate).descendants ∧
        t.isExpression := by
  generalize hroot : Node.ifStatement test consequent alternate = root at hg ⊢
  refine branches_forall (p := fun m => m ∈ root.subtrees ∧ m.isStatement)
    (q := fun m => m ∈ root.descendants ∧ m.isStatement) (fun t c a hp => ?_) (fun m hne hp => ?_)
    ⟨mem_subtrees_self root, ?_⟩
  · have hm := hp.1
    have hfits := (grammatical_iff.1 (hg.subtree hm)).1
    simp only [fits, Bool.and_eq_true, Option.all_eq_true] at hfits
    have hchild : ∀ k ∈ (Node.ifStatement t c a).children, k ∈ root.descendants := fun k hk =>
      mem_descendants_of_mem_descendants (mem_descendants_of_mem_children hk) hm
    refine ⟨⟨hchild t (by simp [children]), hfits.1.1⟩, ⟨hchild c (by simp [children]), hfits.1.2⟩,
      fun k hk => ?_⟩
    exact ⟨mem_subtrees_of_mem_descendants (hchild k (by simp_all [children])), hfits.2 k hk⟩
  · -- The last `else` is no `if`, so it is not the root of the chain.
    obtain ⟨hm, hs⟩ := hp
    rw [subtrees_eq] at hm
    rcases List.mem_cons.1 hm with rfl | hm
    · exact absurd hroot.symm (hne test consequent alternate)
    · exact ⟨hm, hs⟩
  · rw [← hroot]
    rfl

/-! ### Clauses -/

/-- What holds of the last statement of a list when it is opened up, and of the others as they are,
holds of all the statements of the list with its last block opened up. -/
theorem openLastBlock_forall {p : Node → Prop} {body : List Node} (hb : ∀ b ∈ body, p b)
    (ho : ∀ b ∈ body, ∀ m ∈ b.openBlock, p m) : ∀ m ∈ openLastBlock body, p m := by
  induction body with
  | nil => simp [openLastBlock]
  | cons node nodes ih =>
    rw [List.forall_mem_cons] at hb ho
    unfold openLastBlock
    split
    · exact ho.1
    · exact List.forall_mem_cons.2 ⟨hb.1, ih hb.2 ho.2⟩

/-- A statement at the end of a list opens up into subtrees. -/
theorem openBlock_mem (node : Node) : ∀ m ∈ node.openBlock, m ∈ node.subtrees := by
  induction node using induction_on_children with
  | h node ih =>
    unfold openBlock
    split
    · rename_i body
      refine openLastBlock_forall (fun b hb => ?_) (fun b hb m hm => ?_)
      · exact mem_subtrees_of_mem_descendants (mem_descendants_of_mem_children hb)
      · exact mem_subtrees_of_mem_descendants (mem_descendants_of_child hb (ih b hb m hm))
    · intro m hm
      rw [List.mem_singleton.1 hm]
      exact mem_subtrees_self _

theorem openBlock_isStatement (node : Node) (hg : node.Grammatical) (hs : node.isStatement) :
    ∀ m ∈ node.openBlock, m.isStatement := by
  induction node using induction_on_children with
  | h node ih =>
    unfold openBlock
    split
    · rename_i body
      have hb : ∀ b ∈ body, b.isStatement := by
        have hfits := (grammatical_iff.1 hg).1
        simpa [fits] using hfits
      exact openLastBlock_forall hb fun b hm => ih b hm (hg.child hm) (hb b hm)
    · intro m hm
      rw [List.mem_singleton.1 hm]
      exact hs

section Congr

variable {α : Type} {f : List Node → α}

theorem congr_openLastBlock {body : List Node}
    (hb : ∀ node ∈ body, ∀ front, f (front ++ node.openBlock) = f (front ++ [node])) :
    ∀ front, f (front ++ openLastBlock body) = f (front ++ body) := by
  induction body with
  | nil => simp [openLastBlock]
  | cons node nodes ih =>
    intro front
    rw [List.forall_mem_cons] at hb
    have ih := ih hb.2 (front ++ [node])
    rw [openLastBlock]
    split
    · -- Nothing is left behind the node, so that it is the one that is opened up.
      rename_i hnil
      rw [hnil, List.append_nil] at ih
      rw [hb.1, ih, List.append_assoc, List.singleton_append]
    · simpa using ih

theorem congr_openBlock
    (hblock : ∀ front inner, f (front ++ [.blockStatement inner]) = f (front ++ inner))
    (node : Node) : ∀ front, f (front ++ node.openBlock) = f (front ++ [node]) := by
  induction node using induction_on_children with
  | h node ih =>
    intro front
    cases node with
    | blockStatement body =>
      rw [openBlock, hblock]
      exact congr_openLastBlock ih front
    | _ => rfl

/-- What opening up a last block and dropping a last `break` leave unchanged is the same for the
statements of a clause and for its body. -/
theorem congr_clauseBody
    (hblock : ∀ front inner, f (front ++ [.blockStatement inner]) = f (front ++ inner))
    (hbreak : ∀ front, f (front ++ [.breakStatement]) = f front) (body : List Node) :
    f (clauseBody body) = f body := by
  have hopened : f (openLastBlock body) = f body :=
    congr_openLastBlock (fun node _ => congr_openBlock hblock node) []
  rw [← hopened]
  unfold clauseBody
  dsimp only
  split
  · rename_i hlast
    obtain ⟨last, hsome, hisBreak⟩ := (Option.any_eq_true isBreak _).1 hlast
    obtain ⟨front, hfront⟩ := List.getLast?_eq_some_iff.1 hsome
    cases last with
    | breakStatement => rw [hfront, List.dropLast_concat, hbreak]
    | _ => cases hisBreak
  · rfl

end Congr

theorem mem_openLastBlock_of_mem_clauseBody {body : List Node} {m : Node}
    (hm : m ∈ clauseBody body) : m ∈ openLastBlock body := by
  unfold clauseBody at hm
  dsimp only at hm
  split at hm
  · exact (List.dropLast_sublist _).subset hm
  · exact hm

/-- The statements of a clause are statements below the clause. -/
theorem clauseBody_fits {test : Option Node} {consequent : List Node}
    (hg : (Node.switchCase test consequent).Grammatical) :
    ∀ s ∈ clauseBody consequent, s ∈ (Node.switchCase test consequent).descendants ∧
      s.isStatement := by
  have hfits := (grammatical_iff.1 hg).1
  simp only [fits, Bool.and_eq_true, List.all_eq_true] at hfits
  have hc : ∀ s ∈ consequent, s ∈ (Node.switchCase test consequent).children := fun s hs => by
    simp [children, hs]
  intro s hs
  refine openLastBlock_forall
    (p := fun s => s ∈ (Node.switchCase test consequent).descendants ∧ s.isStatement)
    (fun b hb => ?_) (fun b hb m hm => ?_) s (mem_openLastBlock_of_mem_clauseBody hs)
  · exact ⟨mem_descendants_of_mem_children (hc b hb), hfits.2 b hb⟩
  · exact ⟨mem_descendants_of_child (hc b hb) (openBlock_mem b m hm),
      openBlock_isStatement b (hg.child (hc b hb)) (hfits.2 b hb) m hm⟩

end ScriptForms.Node
