import ScriptForms.Proofs.Node.Chain

/-!
# Trees without refused constructs

A few constructs have no faithful form. `Node.isRefused` says of one node whether it is such a
construct, from the node and the kinds of its children alone; a tree is accepted if none of its
nodes is refused.

* A construct outside the tree.
* A spread among the arguments of a call or in braces between elements.
* A computed key of an object, and an accessor.
* A `delete` of something that is no access.
* An assignment to something that is neither a name nor an access, an assignment that may leave its
  target alone, and a compound assignment whose target cannot be evaluated twice.
* A `switch` with a default clause that has no statements, a clause that runs on into the next one,
  or a clause with a `break` before its end.
-/

namespace ScriptForms.Node

/-- Whether an operator assigns only if the current value asks for it. -/
def isLogicalAssignment (operator : String) : Bool :=
  operator = "&&=" || operator = "||=" || operator = "??="

/-- The target of an assignment as it is evaluated: a chain of accesses that starts at `this` starts
at a name instead. -/
def assignedPlace (left : Node) : Node :=
  if left.isReceiverRooted then left.rebindReceiver "that" else left

/-- Whether an assignment to a target has no form. -/
def refusesTarget (operator : String) (left : Node) : Bool :=
  !(left.isIdentifier || left.isAccess) || isLogicalAssignment operator ||
    (operator ≠ "=" && !left.assignedPlace.isRepeatablePlace)

/-- Whether the clauses of a `switch` have no form. -/
def refusesClauses : List Node → Bool
  | [] => false
  | .switchCase test consequent :: rest =>
    (test.isNone && consequent.isEmpty) ||
      (!rest.isEmpty && !consequent.isEmpty && !endsWithExit consequent) ||
      containsBreak (clauseBody consequent) || refusesClauses rest
  | _ :: rest => refusesClauses rest

/-- Whether a node is a construct without a form. -/
def isRefused : Node → Bool
  | .unsupported .. => true
  | .callExpression _ arguments | .newExpression _ arguments => arguments.any isSpread
  | .jsxExpressionContainer expression => expression.any isSpread
  | .objectProperty _ _ computed _ => computed
  | .objectMethod kind _ _ _ computed => computed || kind ≠ .method
  | .unaryExpression operator argument => operator = "delete" && !argument.isAccess
  | .assignmentExpression operator left _ => refusesTarget operator left
  | .switchStatement _ cases => refusesClauses cases
  | _ => false

/-- No node of the tree is refused. -/
def Accepted (node : Node) : Prop := ∀ m ∈ node.subtrees, ¬m.isRefused

theorem accepted_iff (node : Node) :
    node.Accepted ↔ ¬node.isRefused ∧ ∀ child ∈ node.children, child.Accepted :=
  forall_subtrees_iff

/-- A node that is not refused itself is accepted iff its children are. -/
theorem accepted_iff_children {node : Node} (hr : ¬node.isRefused) :
    node.Accepted ↔ ∀ child ∈ node.children, child.Accepted :=
  (accepted_iff node).trans (and_iff_right hr)

theorem not_accepted_unsupported (kind text : String) : ¬(Node.unsupported kind text).Accepted :=
  fun h => h _ (mem_subtrees_self _) rfl

/-! ### Names -/

theorem accepted_identifier (name : String) : (Node.identifier name).Accepted := by
  rw [accepted_iff]
  simp [isRefused, children]

theorem accepted_of_isIdentifier {node : Node} (h : node.isIdentifier) : node.Accepted := by
  cases node <;> first | exact accepted_identifier _ | simp [isIdentifier] at h

/-! ### Chains of accesses -/

theorem accepted_memberExpression {object property : Node} {computed : Bool} :
    (Node.memberExpression object property computed).Accepted ↔
      object.Accepted ∧ property.Accepted := by
  rw [accepted_iff]
  simp [isRefused, children]

theorem accepted_rebindReceiver (name : String) (node : Node) :
    (node.rebindReceiver name).Accepted ↔ node.Accepted := by
  induction node using rebindReceiver.induct with
  | case1 =>
    rw [rebindReceiver, accepted_iff, accepted_iff]
    simp [isRefused, children]
  | case2 object property computed ih =>
    rw [rebindReceiver, accepted_memberExpression, accepted_memberExpression, ih]
  | case3 node h₁ h₂ =>
    rw [rebindReceiver]
    exacts [h₁, h₂]

/-- A chain of dotted accesses is accepted iff its target is. -/
theorem accepted_dotChain {node : Node} (hg : node.Grammatical) :
    node.dotChain.1.Accepted ↔ node.Accepted := by
  induction node using dotChain.induct with
  | case1 object property target properties hd ih =>
    have hc := grammatical_iff.1 hg
    simp only [fits, children, List.forall_mem_cons, Bool.and_eq_true] at hc
    rw [dotChain, accepted_memberExpression]
    exact (ih hc.2.1).trans (and_iff_left (accepted_of_isIdentifier hc.1.2)).symm
  | case2 node h =>
    rw [dotChain]
    exact h

/-! ### Chains of calls -/

/-- The arguments of a call are accepted and hold no spread. -/
def ArgumentsAccepted (arguments : List Node) : Prop :=
  ∀ argument ∈ arguments, ¬argument.isSpread ∧ argument.Accepted

theorem accepted_callExpression (callee : Node) (arguments : List Node) :
    (Node.callExpression callee arguments).Accepted ↔
      callee.Accepted ∧ ArgumentsAccepted arguments := by
  rw [accepted_iff]
  simp only [isRefused, children, List.forall_mem_cons, List.any_eq_true, ArgumentsAccepted]
  constructor
  · rintro ⟨hs, hc, ha⟩
    exact ⟨hc, fun a h => ⟨fun hspread => hs ⟨a, h, hspread⟩, ha a h⟩⟩
  · rintro ⟨hc, ha⟩
    refine ⟨?_, hc, fun a h => (ha a h).2⟩
    rintro ⟨a, h, hspread⟩
    exact (ha a h).1 hspread

theorem accepted_newExpression (callee : Node) (arguments : List Node) :
    (Node.newExpression callee arguments).Accepted ↔
      callee.Accepted ∧ ArgumentsAccepted arguments := by
  rw [← accepted_callExpression, accepted_iff, accepted_iff]
  simp [isRefused, children]

/-- A chain of calls is accepted iff its innermost callee and the arguments of all its calls are. -/
theorem accepted_callChain {node : Node} (hg : node.Grammatical) {first : CallLink}
    {others : List CallLink} (h : node.callChain = first :: others) :
    (first.callee.Accepted ∧ ∀ link ∈ first :: others, ArgumentsAccepted link.arguments) ↔
      node.Accepted := by
  refine callChain_induction (motive := fun node first others => node.Grammatical →
    ((first.callee.Accepted ∧ ∀ link ∈ first :: others, ArgumentsAccepted link.arguments) ↔
      node.Accepted)) (fun callee arguments _ => ?_)
    (fun callee inner property arguments first others ih hg => ?_) h hg
  · rw [List.forall_mem_singleton, accepted_callExpression]
  · -- The receiver of the outer call is the chain so far, and its method is a name.
    obtain ⟨hobject, hproperty⟩ := hg.method
    rw [accepted_callExpression, accepted_memberExpression, ← ih hobject,
      and_iff_left (accepted_of_isIdentifier hproperty), ← List.cons_append,
      List.forall_mem_append, List.forall_mem_singleton, and_assoc]

/-! ### Chains of conditions -/

/-- A chain of conditions is accepted iff all its tests and bodies are. -/
theorem accepted_branches (node : Node) :
    (∀ branch ∈ node.branches, (∀ test ∈ branch.test, test.Accepted) ∧ branch.body.Accepted) ↔
      node.Accepted := by
  refine branches_induction (motive := fun node branches =>
    (∀ branch ∈ branches, (∀ test ∈ branch.test, test.Accepted) ∧ branch.body.Accepted) ↔
      node.Accepted)
    (fun m _ => ?_) (fun test consequent => ?_) (fun test consequent alternate ih => ?_) node
  · simp
  · rw [accepted_iff (.ifStatement ..)]
    simp [isRefused, children]
  · rw [List.forall_mem_cons, accepted_iff (.ifStatement ..), ih]
    simp [isRefused, children, and_assoc]

/-! ### Clauses -/

/-- A clause is accepted as it stands iff it is accepted with its last block opened up and its final
`break` dropped. -/
theorem accepted_clauseBody (body : List Node) :
    (∀ m ∈ clauseBody body, m.Accepted) ↔ ∀ b ∈ body, b.Accepted := by
  refine iff_of_eq (congr_clauseBody (f := fun body => ∀ m ∈ body, m.Accepted)
    (fun front inner => propext ?_) (fun front => propext ?_) body)
  · simp [or_imp, forall_and, accepted_iff (.blockStatement inner), isRefused, children]
  · simp [or_imp, forall_and, accepted_iff .breakStatement, isRefused, children]

end ScriptForms.Node
