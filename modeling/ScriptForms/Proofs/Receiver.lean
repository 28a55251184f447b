import ScriptForms.Proofs.Gauge.Count

/-!
# Receivers are bound where they are used

The receiver of a script is written as a symbol, `this` or `that`, under a list `(this-as name ...)`
that binds it. In a script without names of its own for these symbols, each of them stands inside a
list that binds it, and every use of the receiver is bound by a list of its own.

* `Node.tally_exposure`, `Node.tally_capturing`: what the two counts measure of a tree.
* `Node.toProgram_receivers`: the receivers in the form of a script.
-/

namespace ScriptForms

open Form

namespace Node

/-- A tree without a name exposes nothing of it. -/
theorem tally_exposure {scope : Scope} {receiver : String}
    (h : receiver ∈ [Rule.receiver, Rule.placeReceiver]) {node : Node}
    (hn : ∀ m ∈ node.subtrees, receiver ∉ m.ownName?) :
    (Gauge.exposure scope receiver h).tally node = 0 := by
  rw [Gauge.tally_of_keyed rfl, List.sum_eq_zero_iff_forall_eq_nat]
  intro count hm
  obtain ⟨m, hkept, rfl⟩ := List.mem_map.1 hm
  have hname := hn m (mem_subtrees_of_mem_keptNodes hkept)
  cases m with
  | identifier text | importSpecifier imported text | importDefaultSpecifier text
  | importNamespaceSpecifier text | exportSpecifier text exported =>
    exact if_neg fun heq => hname (congrArg some heq)
  | memberExpression object | callExpression callee | newExpression callee =>
    simp [Gauge.own, Gauge.hostOf_eq_zero, Gauge.exposure]
  | _ => rfl

theorem tally_capturing (scope : Scope) (node : Node) :
    (Gauge.capturing scope).tally node = node.keptNodes.countP isThis := by
  rw [Gauge.tally_of_keyed rfl]
  induction node.keptNodes with
  | nil => rfl
  | cons m nodes ih =>
    have hown : (Gauge.capturing scope).own m = if m.isThis then 1 else 0 := by
      cases m with
      | memberExpression object | callExpression callee | newExpression callee =>
        simp [Gauge.own, Gauge.hostOf_eq_zero, Gauge.capturing, isThis]
      | _ => rfl
    rw [List.map_cons, List.sum_cons, ih, List.countP_cons, hown, Nat.add_comm]

/-- In the form of a script that has no names for the receiver, every `this` stands inside a list
`(this-as this ...)` and every `that` inside a list `(this-as that ...)`. If the script has no
compound assignment and no `switch` with two default clauses, there are as many such lists as uses
of the receiver outside of tests that lead to a default clause; without such a test, as many as uses
of the receiver. -/
theorem toProgram_receivers (node : Node) (h : node.IsScript)
    (hw : ∀ m ∈ node.subtrees, m.isWorded)
    (hn : ∀ m ∈ node.subtrees, ∀ name ∈ m.ownName?, name ∉ ["this", "that"]) (scope : Scope)
    (form : Form) (hf : node.toProgram scope = .ok form) :
    form.exposures "this" = 0 ∧ form.exposures "that" = 0 ∧
      ((∀ m ∈ node.subtrees, ¬m.isCompoundAssignment ∧ ¬m.hasRivalDefaults) →
        form.captures = node.keptNodes.countP isThis ∧
          ((∀ m ∈ node.subtrees, ¬m.hasIdleTest) →
            form.captures = node.subtrees.countP isThis)) := by
  have hexposures : ∀ receiver (hr : receiver ∈ [Rule.receiver, Rule.placeReceiver]),
      form.exposures receiver = 0 := by
    intro receiver hr
    have hcovers : (Gauge.exposure scope receiver hr).Covers node := ⟨h.2, hw⟩
    refine (Gauge.exposure scope receiver hr).rel_toProgram hcovers h.1 form hf ?_
    exact tally_exposure hr fun m hm hname => hn m hm receiver hname hr
  refine ⟨hexposures _ (by simp [Rule.receiver]), hexposures _ (by simp [Rule.placeReceiver]), ?_⟩
  intro honce
  have hcovers : (Gauge.capturing scope).Covers node :=
    ⟨h.2, fun m hm => ⟨hw m hm, honce m hm⟩⟩
  have hcaptures : form.captures = node.keptNodes.countP isThis := by
    rw [← tally_capturing scope]
    exact (Gauge.capturing scope).rel_toProgram hcovers h.1 form hf
  refine ⟨hcaptures, fun hidle => ?_⟩
  rw [hcaptures, countP_keptNodes ?_ h.2 hidle]
  intro m hm
  cases m with
  | switchCase test consequent => simp [isThis]
  | _ => cases hm

/-- The script `this.a = this.f(this[k]); switch (x) { case this: default: this; }`. -/
def receiverScript : Node :=
  .program [.expressionStatement (.assignmentExpression "="
      (.memberExpression .thisExpression (.identifier "a") false)
      (.callExpression (.memberExpression .thisExpression (.identifier "f") false)
        [.memberExpression .thisExpression (.identifier "k") true])) [],
    .switchStatement (.identifier "x") [.switchCase (some .thisExpression) [],
      .switchCase none [.expressionStatement .thisExpression []]]]

/-- The form of `receiverScript`. -/
def receiverForm : Form :=
  .program [.thisAs "that" (.call "set!" [.list [.symbol ".-a", .symbol "that"],
      .thisAs "this" (.list [.symbol ".f", .symbol "this",
        .thisAs "this" (.call "aget" [.symbol "this", .symbol "k"])])]),
    .call "case" [.symbol "x", .thisAs "this" (.symbol "this")]]

theorem toProgram_receiverScript :
    (receiverScript.IsScript ∧ (∀ m ∈ receiverScript.subtrees, m.isWorded) ∧
      (∀ m ∈ receiverScript.subtrees, ∀ name ∈ m.ownName?, name ∉ ["this", "that"]) ∧
      receiverScript.toProgram (fun _ => false) = .ok receiverForm) ∧
      receiverForm.exposures "this" = 0 ∧ receiverForm.exposures "that" = 0 ∧
      receiverForm.captures = receiverScript.keptNodes.countP isThis ∧
      receiverForm.captures = 4 := by
  have hscript : receiverScript.IsScript := ⟨rfl, by unfold Grammatical; decide⟩
  have hworded : ∀ m ∈ receiverScript.subtrees, m.isWorded := by decide
  have hnames : ∀ m ∈ receiverScript.subtrees, ∀ name ∈ m.ownName?, name ∉ ["this", "that"] := by
    decide
  have hform : receiverScript.toProgram (fun _ => false) = .ok receiverForm := rfl
  obtain ⟨hthis, hthat, hcaptures⟩ := toProgram_receivers _ hscript hworded hnames _ _ hform
  exact ⟨⟨hscript, hworded, hnames, hform⟩, hthis, hthat, (hcaptures (by decide)).1, rfl⟩

/-! ### A test that is never made -/

/-- The script `switch (a) { case this: default: b; }`. -/
def idleTestScript : Node :=
  .program [.switchStatement (.identifier "a") [.switchCase (some .thisExpression) [],
    .switchCase none [.expressionStatement (.identifier "b") []]]]

/-- The form of `idleTestScript`. -/
def idleTestForm : Form := .program [.call "case" [.symbol "a", .symbol "b"]]

/-- A use of the receiver in a test that leads to a default clause is not bound, since the test is
not made: not all uses of the receiver have a list of their own. -/
theorem captures_idleTestScript :
    (idleTestScript.IsScript ∧ (∀ m ∈ idleTestScript.subtrees, m.isWorded) ∧
      (∀ m ∈ idleTestScript.subtrees, ∀ name ∈ m.ownName?, name ∉ ["this", "that"]) ∧
      (∀ m ∈ idleTestScript.subtrees, ¬m.isCompoundAssignment)) ∧
      idleTestScript.toProgram (fun _ => false) = .ok idleTestForm ∧
      idleTestForm.captures ≠ idleTestScript.subtrees.countP isThis := by
  have hscript : idleTestScript.IsScript := ⟨rfl, by unfold Grammatical; decide⟩
  exact ⟨⟨hscript, by decide, by decide, by decide⟩, rfl, by decide⟩

end Node

end ScriptForms
