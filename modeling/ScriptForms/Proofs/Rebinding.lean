import ScriptForms.Proofs.Repetition

/-!
# Renaming the receiver

A chain of accesses is a root with steps, dotted or computed. Renaming the receiver looks at the
root only: `this` becomes a name, and every step stays as it is, with whatever its key holds. A
chain does not start at `this` any more once it is renamed, so that a rule that enters itself again
with the renamed chain does so at most once.

* `Node.accessSteps`, `Node.access`: the steps of a chain, and the chain of a root and steps.
* `Node.rebindReceiver_eq_access`: the same steps from another root.
* `Rule.Reenters`: a rule that enters itself again with a renamed receiver.
* `Rule.reenters_iff`: there is one such rule, and it enters itself at most once.
* `Node.rebindReceiver_rebinds`: what renaming keeps, and the rules that rely on it.
-/

namespace ScriptForms

namespace Node

/-! ### Chains as a root with steps -/

/-- One step of a chain of accesses. -/
structure AccessStep where
  /-- The name of a property or, if it is computed, the key of an element. -/
  property : Node
  computed : Bool

/-- The steps of a chain of accesses, from its root on. -/
def accessSteps : Node → List AccessStep
  | .memberExpression object property computed => object.accessSteps ++ [⟨property, computed⟩]
  | _ => []

/-- The access of one step. -/
def accessStep (object : Node) (step : AccessStep) : Node :=
  .memberExpression object step.property step.computed

/-- The chain of accesses with a root and steps. -/
def access (root : Node) (steps : List AccessStep) : Node := steps.foldl accessStep root

theorem access_concat (root : Node) (steps : List AccessStep) (step : AccessStep) :
    root.access (steps ++ [step]) =
      .memberExpression (root.access steps) step.property step.computed := by
  rw [access, List.foldl_append]
  rfl

/-- A node is the chain of its root and its steps. -/
theorem access_accessSteps (node : Node) : node.accessRoot.access node.accessSteps = node := by
  induction node using accessRoot.induct with
  | case1 object property computed ih => rw [accessRoot, accessSteps, access_concat, ih]
  | case2 node hne =>
    cases node with
    | memberExpression object property computed => exact absurd rfl (hne object property computed)
    | _ => rfl

theorem accessRoot_access (root : Node) (steps : List AccessStep) :
    (root.access steps).accessRoot = root.accessRoot := by
  induction steps generalizing root with
  | nil => rfl
  | cons step steps ih => exact ih (root.accessStep step)

theorem accessSteps_access (root : Node) (steps : List AccessStep) :
    (root.access steps).accessSteps = root.accessSteps ++ steps := by
  induction steps generalizing root with
  | nil => exact (List.append_nil _).symm
  | cons step steps ih =>
    rw [access, List.foldl_cons, ← access, ih, accessStep, accessSteps, List.append_assoc]
    rfl

theorem accessRoot_eq_self {node : Node} (h : node.isAccess = false) : node.accessRoot = node := by
  cases node with
  | memberExpression object property computed => cases h
  | _ => rfl

theorem isAccess_accessRoot (node : Node) : node.accessRoot.isAccess = false := by
  induction node using accessRoot.induct with
  | case1 object property computed ih => exact ih
  | case2 node hne =>
    cases node with
    | memberExpression object property computed => exact absurd rfl (hne object property computed)
    | _ => rfl

theorem accessSteps_eq_nil_iff (node : Node) : node.accessSteps = [] ↔ node.isAccess = false := by
  cases node <;> simp [isAccess, accessSteps]

/-! ### Renaming -/

theorem rebindReceiver_access (name : String) (root : Node) (steps : List AccessStep) :
    (root.access steps).rebindReceiver name = (root.rebindReceiver name).access steps := by
  induction steps generalizing root with
  | nil => rfl
  | cons step steps ih => exact ih (root.accessStep step)

/-- The root of a renamed chain. -/
def reboundRoot (name : String) (root : Node) : Node :=
  if root.isThis then .identifier name else root

theorem isAccess_reboundRoot (name : String) (node : Node) :
    (reboundRoot name node.accessRoot).isAccess = false := by
  unfold reboundRoot
  split
  · rfl
  · exact isAccess_accessRoot node

theorem rebindReceiver_eq_reboundRoot (name : String) {root : Node} (h : root.isAccess = false) :
    root.rebindReceiver name = reboundRoot name root := by
  cases root with
  | memberExpression object property computed => cases h
  | _ => rfl

/-- A renamed chain has the same steps, from another root. -/
theorem rebindReceiver_eq_access (name : String) (node : Node) :
    node.rebindReceiver name = (reboundRoot name node.accessRoot).access node.accessSteps := by
  conv_lhs => rw [← access_accessSteps node]
  rw [rebindReceiver_access, rebindReceiver_eq_reboundRoot name (isAccess_accessRoot node)]

theorem accessSteps_rebindReceiver (name : String) (node : Node) :
    (node.rebindReceiver name).accessSteps = node.accessSteps := by
  have hroot : (reboundRoot name node.accessRoot).accessSteps = [] :=
    (accessSteps_eq_nil_iff _).2 (isAccess_reboundRoot name node)
  rw [rebindReceiver_eq_access, accessSteps_access, hroot, List.nil_append]

theorem accessRoot_rebindReceiver (name : String) (node : Node) :
    (node.rebindReceiver name).accessRoot = reboundRoot name node.accessRoot := by
  rw [rebindReceiver_eq_access, accessRoot_access,
    accessRoot_eq_self (isAccess_reboundRoot name node)]

/-- Renaming changes a node only if there is `this` at its root. -/
theorem rebindReceiver_eq_self_iff (name : String) (node : Node) :
    node.rebindReceiver name = node ↔ node.accessRoot.isThis = false := by
  refine ⟨fun h => ?_, fun h => rebindReceiver_of_not_this h name⟩
  rw [← h]
  exact isThis_accessRoot_rebindReceiver name node

theorem isReceiverRooted_rebindReceiver (name : String) (node : Node) :
    (node.rebindReceiver name).isReceiverRooted = false := by
  rw [isReceiverRooted, isThis_accessRoot_rebindReceiver, Bool.and_false]

theorem isReceiverRooted_iff (node : Node) :
    node.isReceiverRooted ↔ node.accessSteps ≠ [] ∧ node.accessRoot.isThis := by
  simp [isReceiverRooted, accessSteps_eq_nil_iff]

theorem isRepeatablePlace_rebindReceiver (name : String) (node : Node) :
    (node.rebindReceiver name).isRepeatablePlace = node.isRepeatablePlace := by
  cases node with
  | memberExpression object property computed =>
    rw [rebindReceiver, isRepeatablePlace, isRepeatablePlace, isRepeatable_rebindReceiver]
  | _ => rfl

end Node

namespace Rule

open Node

/-! ### Rules that enter themselves again -/

/-- A rule that puts a chain that starts at `this` under a binder of the receiver, and enters itself
again with the renamed chain. Everything else is left to `plain`. -/
def Reenters (name : String) (plain rule : Node → Except Fault Form) : Prop :=
  ∀ node, rule node =
    if node.isReceiverRooted then return .thisAs name (← rule (node.rebindReceiver name))
    else plain node

variable {name : String} {plain rule : Node → Except Fault Form}

/-- A rule that has been entered again does not enter itself once more. -/
theorem Reenters.rebound (h : Reenters name plain rule) (node : Node) :
    rule (node.rebindReceiver name) = plain (node.rebindReceiver name) := by
  rw [h, isReceiverRooted_rebindReceiver]
  rfl

/-- There is one rule that enters itself again, and it can be written without doing so. -/
theorem reenters_iff : Reenters name plain rule ↔ rule = fun node =>
    if node.isReceiverRooted then return .thisAs name (← plain (node.rebindReceiver name))
    else plain node := by
  refine ⟨fun h => funext fun node => ?_, ?_⟩
  · rw [h node, h.rebound]
  · rintro rfl node
    simp only [isReceiverRooted_rebindReceiver, Bool.false_eq_true, if_false]

theorem reenters_member_iff {visit : Visit} :
    Reenters receiver (plainMember visit) rule ↔ rule = member visit :=
  reenters_iff

theorem reenters_call_iff {visit : Visit} {nodes : List Node} :
    Reenters receiver (fun callee => plainCall visit callee nodes) rule ↔
      rule = fun callee => call visit callee nodes :=
  reenters_iff

/-- The rule for assignments, for the target that a message shows. -/
theorem reenters_assignment_iff (visit : Visit) (operator : String) (shown right : Node) :
    ∃ assign, assign shown = assignment visit operator shown right ∧ ∀ rule,
      Reenters placeReceiver (fun target => plainAssignment visit operator shown target right)
        rule ↔ rule = assign :=
  ⟨_, rfl, fun _ => reenters_iff⟩

end Rule

namespace Node

/-- What renaming the receiver makes of a node. -/
structure Rebinds (name : String) (node rebound : Node) : Prop where
  /-- The node is a chain of accesses, maybe without any step. -/
  chain : node = node.accessRoot.access node.accessSteps
  /-- What it becomes is the chain of the same steps, with every key as it is, whose root is the
  name instead of `this`. -/
  eq_access : rebound =
    (if node.accessRoot.isThis then .identifier name else node.accessRoot).access node.accessSteps
  steps : rebound.accessSteps = node.accessSteps
  root : rebound.accessRoot = if node.accessRoot.isThis then .identifier name else node.accessRoot
  /-- It changes if there is `this` at the root, and in no other case. -/
  unchanged : rebound = node ↔ ¬node.accessRoot.isThis
  /-- Accesses that are found to start at `this` are those that change. -/
  detected : node.isReceiverRooted ↔ node.accessSteps ≠ [] ∧ rebound ≠ node
  notRooted : ¬rebound.isReceiverRooted
  repeatable : rebound.isRepeatable = node.isRepeatable
  place : rebound.isRepeatablePlace = node.isRepeatablePlace

/-- Renaming the receiver replaces the root of a chain of accesses and nothing else, and leaves no
chain that starts at `this`. So the rules for accesses, calls and assignments, which enter
themselves again with the renamed chain, do so at most once: each of them is the one rule of this
kind. -/
theorem rebindReceiver_rebinds (name : String) (node : Node) :
    Rebinds name node (node.rebindReceiver name) ∧
    (∀ plain rule, Rule.Reenters name plain rule →
      rule (node.rebindReceiver name) = plain (node.rebindReceiver name)) ∧
    ∀ visit : Rule.Visit,
      (∀ rule, Rule.Reenters Rule.receiver (Rule.plainMember visit) rule ↔
        rule = Rule.member visit) ∧
      (∀ arguments rule,
        Rule.Reenters Rule.receiver (fun callee => Rule.plainCall visit callee arguments) rule ↔
          rule = fun callee => Rule.call visit callee arguments) ∧
      ∀ operator right, ∃ assign, assign node = Rule.assignment visit operator node right ∧
        ∀ rule, Rule.Reenters Rule.placeReceiver
          (fun target => Rule.plainAssignment visit operator node target right) rule ↔
            rule = assign := by
  refine ⟨?_, fun plain rule h => h.rebound node, fun visit => ⟨?_, ?_, ?_⟩⟩
  · have hself := rebindReceiver_eq_self_iff name node
    exact {
      chain := (access_accessSteps node).symm
      eq_access := rebindReceiver_eq_access name node
      steps := accessSteps_rebindReceiver name node
      root := accessRoot_rebindReceiver name node
      unchanged := by simpa using hself
      detected := by
        rw [isReceiverRooted_iff, Ne, Ne, hself, Bool.not_eq_false]
      notRooted := by rw [isReceiverRooted_rebindReceiver]; exact Bool.false_ne_true
      repeatable := isRepeatable_rebindReceiver name node
      place := isRepeatablePlace_rebindReceiver name node }
  · exact fun rule => Rule.reenters_member_iff
  · exact fun arguments rule => Rule.reenters_call_iff
  · exact fun operator right => Rule.reenters_assignment_iff visit operator node right

/-- The access `root.a[this.b].c`. -/
def keyedChain (root : Node) : Node :=
  .memberExpression
    (.memberExpression (.memberExpression root (.identifier "a") false)
      (.memberExpression .thisExpression (.identifier "b") false) true)
    (.identifier "c") false

/-- In `this.a[this.b].c` the key keeps its `this`, and the rule for accesses does not enter itself
again for the renamed access. -/
theorem rebindReceiver_keyedChain :
    (keyedChain .thisExpression).isReceiverRooted ∧
    Rebinds Rule.receiver (keyedChain .thisExpression) (keyedChain (.identifier "this")) ∧
    Rule.member (Rule.convert (fun _ => false) 4) (keyedChain (.identifier "this")) =
      Rule.plainMember (Rule.convert (fun _ => false) 4) (keyedChain (.identifier "this")) := by
  obtain ⟨hrebinds, hplain, hrules⟩ :=
    rebindReceiver_rebinds Rule.receiver (keyedChain .thisExpression)
  obtain ⟨hmember, -⟩ := hrules (Rule.convert (fun _ => false) 4)
  exact ⟨rfl, hrebinds, hplain _ _ ((hmember _).2 rfl)⟩

end Node

end ScriptForms
