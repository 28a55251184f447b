import ScriptForms.Proofs.Acceptance.Expression
import ScriptForms.Proofs.Acceptance.Statement

/-!
# Which scripts have forms

A script is converted iff none of its nodes is a refused construct: nothing without a form is ever
left out in silence.

* `Rule.step_decides`: one step decides a tree if the conversion of smaller trees decides those.
* `Node.toProgram_succeeds_iff`: the conversion of a script succeeds iff the script is accepted.
-/

namespace ScriptForms

open Node

namespace Rule

variable {visit : Visit}

theorem step_decides_statement (scope : Scope) (node : Node) (hv : DecidesBelow visit node.size)
    (hg : node.Grammatical) (hs : node.isStatement) : Decides (step scope visit) node := by
  intro context
  have hfits := (grammatical_iff.1 hg).1
  cases node with
  | unsupported kind text => simp [step, not_accepted_unsupported]
  | expressionStatement expression comments =>
    have he : Decides visit expression :=
      hv.child hg (by simp [children]) (standsAlone_of_isExpression hfits)
    simpa [accepted_iff_children, isRefused, children, step] using he .value
  | blockStatement body =>
    simp only [fits, List.all_eq_true] at hfits
    have hbody := succeeds_statements hv (fun s hm => size_of_child hm)
      (fun s hm => hg.child hm) hfits
    simpa [accepted_iff_children, isRefused, children, step] using hbody
  | emptyStatement => simp [accepted_iff_children, isRefused, children, step]
  | debuggerStatement => simp [accepted_iff_children, isRefused, children, step]
  | breakStatement => simp [accepted_iff_children, isRefused, children, step]
  | returnStatement argument =>
    cases argument with
    | none => simp [accepted_iff_children, isRefused, children, step]
    | some argument =>
      have ha : Decides visit argument :=
        hv.child hg (by simp [children]) (standsAlone_of_isExpression (by simpa [fits] using hfits))
      simpa [accepted_iff_children, isRefused, children, step] using ha .value
  | throwStatement argument =>
    have ha : Decides visit argument :=
      hv.child hg (by simp [children]) (standsAlone_of_isExpression hfits)
    simpa [accepted_iff_children, isRefused, children, step] using ha .value
  | ifStatement test consequent alternate => simpa [step] using succeeds_ifStatement hv hg
  | switchStatement discriminant cases => simpa [step] using succeeds_switchStatement hv hg
  | tryStatement block handler finalizer => simpa [step] using succeeds_tryStatement hv hg
  | variableDeclaration kind declarations => exact succeeds_declarators succeeds_declarator hv hg
  | functionDeclaration id params body =>
    simp only [fits, Bool.and_eq_true, List.all_eq_true] at hfits
    have hbody : Decides visit body :=
      hv.child hg (by simp [children]) (standsAlone_of_isBlock hfits.2)
    have hname := succeeds_bindingName hfits.1.1
    rw [step, succeeds_bind_iff (p := (∀ p ∈ params, p.Accepted) ∧ body.Accepted) fun _ _ => by
      simp [succeeds_function hfits.1.2 hbody], hname]
    simp [accepted_iff_children, isRefused, children, or_imp, forall_and]
  | importDeclaration specifiers source => exact succeeds_importDeclaration hg
  | exportDefaultDeclaration declaration => simpa [step] using succeeds_exportDefault hv hg
  | exportNamedDeclaration declaration specifiers => exact succeeds_exportNamed hv hg
  | _ => cases hs

theorem step_decides_expression (scope : Scope) (node : Node) (hv : DecidesBelow visit node.size)
    (hg : node.Grammatical) (hs : node.isExpression) : Decides (step scope visit) node := by
  intro context
  have hfits := (grammatical_iff.1 hg).1
  have hchild : ∀ child ∈ node.children, child.isExpression → Decides visit child :=
    fun child hc he => hv.child hg hc (standsAlone_of_isExpression he)
  cases node with
  | unsupported kind text => simp [step, not_accepted_unsupported]
  | identifier name => simp [accepted_iff_children, isRefused, children, step]
  | thisExpression => simp [accepted_iff_children, isRefused, children, step]
  | nullLiteral => simp [accepted_iff_children, isRefused, children, step]
  | booleanLiteral value => simp [accepted_iff_children, isRefused, children, step]
  | numericLiteral raw => simp [accepted_iff_children, isRefused, children, step]
  | stringLiteral value => simp [accepted_iff_children, isRefused, children, step]
  | regExpLiteral pattern flags => simp [accepted_iff_children, isRefused, children, step]
  | templateLiteral texts expressions => simpa [step] using succeeds_template hv hg
  | arrayExpression elements => simpa [step] using succeeds_array hv hg
  | objectExpression properties => simpa [step] using succeeds_object hv hg
  | functionExpression id params body =>
    cases id with
    | none => simpa [step] using succeeds_functionExpression hv hg
    | some id =>
      simp only [fits, Bool.and_eq_true, List.all_eq_true, Option.all_some] at hfits
      have hbody : Decides visit body :=
        hv.child hg (by simp [children]) (standsAlone_of_isBlock hfits.2)
      have hname := succeeds_bindingName hfits.1.1
      rw [step, succeeds_bind_iff (p := (∀ p ∈ params, p.Accepted) ∧ body.Accepted) fun _ _ => by
        simp [succeeds_function hfits.1.2 hbody]]
      simp [accepted_iff_children, isRefused, children, or_imp, forall_and, hname]
  | arrowFunctionExpression params body => simpa [step] using succeeds_arrow hv hg
  | unaryExpression operator argument => simpa [step] using succeeds_unary hv hg
  | binaryExpression operator left right | logicalExpression operator left right =>
    simp only [fits, Bool.and_eq_true] at hfits
    have hl := hchild left (by simp [children]) hfits.1
    have hr := hchild right (by simp [children]) hfits.2
    simp [accepted_iff_children, isRefused, children, step, hl .value, hr .value]
  | assignmentExpression operator left right => simpa [step] using succeeds_assignment hv hg
  | conditionalExpression test consequent alternate =>
    simp only [fits, Bool.and_eq_true] at hfits
    have ht := hchild test (by simp [children]) hfits.1.1
    have hc := hchild consequent (by simp [children]) hfits.1.2
    have ha := hchild alternate (by simp [children]) hfits.2
    simp [accepted_iff_children, isRefused, children, step, ht .value, hc .value, ha .value]
  | callExpression callee arguments => simpa [step] using succeeds_callExpression hv hg
  | newExpression callee arguments => simpa [step] using succeeds_newExpression hv hg
  | memberExpression object property computed => simpa [step] using succeeds_member hv hg
  | jsxElement opening items => simpa [step] using succeeds_jsxElement hv hg
  | _ => cases hs

theorem step_decides_container (scope : Scope) (expression : Option Node)
    (hspread : RefusesSpreads visit)
    (hv : DecidesBelow visit (Node.jsxExpressionContainer expression).size)
    (hg : (Node.jsxExpressionContainer expression).Grammatical) :
    Decides (step scope visit) (.jsxExpressionContainer expression) := by
  intro context
  cases expression with
  | none => simp [accepted_iff_children, isRefused, children, step]
  | some expression =>
    have hfits := (grammatical_iff.1 hg).1
    simp only [fits, Option.all_some, Bool.or_eq_true] at hfits
    rw [accepted_iff, step]
    rcases hfits with he | hs
    · have hd : Decides visit expression :=
        hv.child hg (by simp [children]) (standsAlone_of_isExpression he)
      simp [isRefused, children, isSpread_of_isExpression he, hd .value]
    · cases expression with
      | spreadElement argument =>
        obtain ⟨fault, hfault⟩ := hspread argument .value
        rw [hfault]
        simp [isRefused, isSpread]
      | _ => cases hs

/-- One step decides a tree if the conversion of smaller trees decides those. -/
theorem step_decides (scope : Scope) (visit : Visit) (node : Node) (hspread : RefusesSpreads visit)
    (hv : DecidesBelow visit node.size) (hg : node.Grammatical) (hs : node.standsAlone) :
    Decides (step scope visit) node := by
  by_cases he : node.isExpression
  · exact step_decides_expression scope node hv hg he
  by_cases ht : node.isStatement
  · exact step_decides_statement scope node hv hg ht
  obtain ⟨body, rfl⟩ | ⟨id, init, rfl⟩ | ⟨name, rfl⟩ | ⟨expression, rfl⟩ | ⟨value, rfl⟩ |
    ⟨halone, -⟩ := step_part_cases he ht
  · cases hs
  · cases hs
  · simp [Decides, accepted_iff_children, isRefused, children, step]
  · exact step_decides_container scope expression hspread hv hg
  · simp [Decides, accepted_iff_children, isRefused, children, step]
  · rw [halone] at hs
    cases hs

/-- The conversion decides every tree that is no deeper than its depth. -/
theorem convert_decides (scope : Scope) (depth : Nat) :
    DecidesBelow (convert scope depth) (depth + 1) :=
  convert_holds scope (step_decides scope) depth

end Rule

namespace Node

theorem succeeds_toProgram {node : Node} (scope : Scope) (h : node.IsScript) :
    Succeeds (node.toProgram scope) ↔ node.Accepted := by
  obtain ⟨hp, hg⟩ := h
  cases node with
  | program body =>
    have hfits := (grammatical_iff.1 hg).1
    simp only [fits, List.all_eq_true] at hfits
    have hbody : Succeeds (Rule.program (Rule.convert scope (Node.program body).size) body) ↔
        ∀ s ∈ body, s.Accepted :=
      Rule.succeeds_program (Rule.convert_decides scope (Node.program body).size)
        (fun s hm => Nat.lt_succ_of_lt (size_of_child hm)) (fun s hm => hg.child hm) hfits
    rw [toProgram, hbody, accepted_iff (.program body)]
    simp [isRefused, children]
  | _ => cases hp

/-- A script has forms iff none of its nodes is a refused construct; in particular no construct
outside the tree is left out in silence. -/
theorem toProgram_succeeds_iff (scope : Scope) (node : Node) (h : node.IsScript) :
    ((∃ form, node.toProgram scope = .ok form) ↔ ∀ m ∈ node.subtrees, ¬m.isRefused) ∧
      ∀ kind text, .unsupported kind text ∈ node.subtrees →
        ∃ fault, node.toProgram scope = .error fault := by
  have hiff : (∃ form, node.toProgram scope = .ok form) ↔ ∀ m ∈ node.subtrees, ¬m.isRefused :=
    succeeds_toProgram scope h
  refine ⟨hiff, fun kind text hm => ?_⟩
  cases hresult : node.toProgram scope with
  | error fault => exact ⟨fault, rfl⟩
  | ok form => exact absurd rfl (hiff.1 ⟨form, hresult⟩ _ hm)

/-- A call of `f` with one argument. -/
def callScript (argument : Node) : Node :=
  .program [.expressionStatement (.callExpression (.identifier "f") [argument]) []]

/-- The script `f(x)` has a form, and `f(yield x)` has none. -/
theorem toProgram_callScript :
    ((callScript (.identifier "x")).IsScript ∧
      ∃ form, (callScript (.identifier "x")).toProgram NameSet.host.scope = .ok form) ∧
    ((callScript (.unsupported "yield_expression" "yield x")).IsScript ∧
      ∃ fault, (callScript (.unsupported "yield_expression" "yield x")).toProgram
        NameSet.host.scope = .error fault) := by
  have hname : (callScript (.identifier "x")).IsScript := ⟨rfl, by unfold Grammatical; decide⟩
  have hyield : (callScript (.unsupported "yield_expression" "yield x")).IsScript :=
    ⟨rfl, by unfold Grammatical; decide⟩
  refine ⟨⟨hname, (toProgram_succeeds_iff _ _ hname).1.2 (by decide)⟩, hyield, ?_⟩
  refine (toProgram_succeeds_iff _ _ hyield).2 "yield_expression" "yield x" ?_
  simp [callScript, subtrees_eq, descendants, children]

end Node

end ScriptForms
