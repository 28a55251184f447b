import ScriptForms.Proofs.Conversion
import ScriptForms.Proofs.Agreement.Expression

/-!
# Two conversions of a script

One step keeps the agreement of two conversions, so that conversions of any depth agree, and with
them the programs of a script.

* `Rule.step_agrees`, `Rule.convert_agrees`: from one step to all depths.
* `Comparison.CoversScript`: the scripts that a comparison is about.
* `Comparison.agree_toProgram`: the two programs of such a script.
-/

namespace ScriptForms

open Node Form

namespace Rule

open Comparison

variable {c : Comparison} {visit₁ visit₂ : Visit} {node : Node}

/-- A node that is no definition has related forms. -/
theorem agree_of_forms (hd : node.isDefinition = false) {x y : Except Fault (List Form)}
    (h : Agree (List.Forall₂ c.Related) x y) : Agree (c.RelatedForms node) x y :=
  h.imp fun _ _ hforms => ⟨hforms, fun hdefinition => by simp [hd] at hdefinition⟩

theorem agree_of_form (hd : node.isDefinition = false) {x y : Except Fault Form}
    (h : Agree c.Related x y) : Agree (c.RelatedForms node) (return [← x]) (return [← y]) :=
  agree_of_forms hd (agree_bind h fun _ _ hform => agree_pure (.cons hform .nil))

theorem agree_of_related (hd : node.isDefinition = false) {form other : Form}
    (h : c.Related form other) :
    Agree (c.RelatedForms node) (.ok [form] : Except Fault (List Form)) (.ok [other]) :=
  agree_of_forms hd (.ok (.cons h .nil))

/-- The forms of a definition are related and define the same names. -/
theorem relatedForms_of_defines {forms others : List Form}
    (h : List.Forall₂ c.Defines forms others) : c.RelatedForms node forms others :=
  ⟨h.imp fun _ _ hform => hform.1, fun _ => h.imp fun _ _ hform => hform.2⟩

theorem step_agrees_statement (hv : Agrees c visit₁ visit₂) (h : c.Covers node)
    (hs : node.isStatement) (context : Context) :
    Agree (c.RelatedForms node) (step c.left visit₁ node context)
      (step c.right visit₂ node context) := by
  cases node with
  | unsupported kind text => exact .error _
  | expressionStatement expression comments =>
    exact agree_of_forms rfl (hv.forms (h.child (by simp [children])) .value)
  | blockStatement body =>
    refine agree_of_forms rfl ?_
    refine agree_bind (agree_statements hv fun s hs => h.child hs) fun forms others hforms => ?_
    refine agree_pure ?_
    split
    · exact hforms
    · exact .cons (related_sequence hforms) .nil
  | emptyStatement | breakStatement => exact agree_of_related rfl (c.marker rfl)
  | debuggerStatement => exact agree_of_related rfl (related_fixedCall (by decide) .nil)
  | returnStatement argument =>
    cases argument with
    | none => exact agree_of_related rfl related_nil
    | some argument => exact agree_of_forms rfl (hv.forms (h.child (by simp [children])) .value)
  | throwStatement argument =>
    refine agree_of_forms rfl ?_
    refine agree_bind (hv.one (h.child (by simp [children])) .value) fun form form' hform => ?_
    exact agree_pure (.cons (related_fixedCall (by decide) (.cons hform .nil)) .nil)
  | ifStatement test consequent alternate => exact agree_of_form rfl (agree_ifStatement hv h)
  | switchStatement discriminant cases => exact agree_of_form rfl (agree_switchStatement hv h)
  | tryStatement block handler finalizer => exact agree_of_form rfl (agree_tryStatement hv h)
  | variableDeclaration kind declarations =>
    refine (agree_mapM fun d hd => agree_declarator hv (h.child hd)).imp ?_
    exact fun forms others hforms => relatedForms_of_defines hforms
  | functionDeclaration id params body =>
    refine agree_bind (agree_bindingName (h.child (by simp [children]))) fun name name' hname => ?_
    have hp : ∀ p ∈ params, c.Covers p := fun p hm => h.child (by simp [children, hm])
    refine agree_bind (agree_definition hv hname hp (h.child (by simp [children]))) ?_
    exact fun form form' hform => agree_pure (relatedForms_of_defines (.cons hform .nil))
  | importDeclaration specifiers source => exact agree_of_forms rfl (agree_importDeclaration h)
  | exportDefaultDeclaration declaration =>
    exact agree_of_form rfl (agree_exportDefault hv (h.child (by simp [children])))
  | exportNamedDeclaration declaration specifiers =>
    exact agree_of_forms rfl (agree_exportNamed hv h)
  | _ => cases hs

theorem step_agrees_expression (hv : Agrees c visit₁ visit₂) (h : c.Covers node)
    (he : node.isExpression) (context : Context) :
    Agree (c.RelatedForms node) (step c.left visit₁ node context)
      (step c.right visit₂ node context) := by
  have htexts := h.texts node (mem_subtrees_self node)
  cases node with
  | unsupported kind text => exact .error _
  | identifier name =>
    exact agree_of_related rfl (c.identifier (htexts.name name rfl) (h.word (by simp [words])) _)
  | thisExpression =>
    have hreceiver : c.Related (.symbol receiver) (.symbol receiver) := related_fixed (by decide)
    exact agree_of_related rfl (related_thisAs (by simp) hreceiver)
  | nullLiteral => exact agree_of_related rfl related_nil
  | booleanLiteral value => exact agree_of_related rfl (c.boolean value)
  | numericLiteral raw => exact agree_of_related rfl (c.number (h.word (by simp [words])))
  | stringLiteral value => exact agree_of_related rfl (c.string value)
  | regExpLiteral pattern flags =>
    exact agree_of_related rfl (c.regex (htexts.pattern pattern rfl) flags)
  | templateLiteral texts expressions => exact agree_of_form rfl (agree_template hv h)
  | arrayExpression elements => exact agree_of_form rfl (agree_array hv h)
  | objectExpression properties => exact agree_of_form rfl (agree_object hv h)
  | functionExpression id params body =>
    have hp : ∀ p ∈ params, c.Covers p := fun p hm => h.child (by simp [children, hm])
    have hb : c.Covers body := h.child (by simp [children])
    cases id with
    | none => exact agree_of_form rfl (agree_lambda hv .nil hp hb)
    | some id =>
      have hid : Agree (fun name name' : Option Form =>
          List.Forall₂ c.Related name.toList name'.toList)
          ((some id).mapM bindingName) ((some id).mapM bindingName) := by
        refine agree_bind (agree_bindingName (h.child (by simp [children]))) ?_
        exact fun name name' hname => agree_pure (.cons hname.related .nil)
      exact agree_bind hid fun name name' hname =>
        agree_of_form rfl (agree_lambda hv hname hp hb)
  | arrowFunctionExpression params body =>
    have hp : ∀ p ∈ params, c.Covers p := fun p hm => h.child (by simp [children, hm])
    exact agree_of_form rfl (agree_lambda hv .nil hp (h.child (by simp [children])))
  | unaryExpression operator argument => exact agree_of_form rfl (agree_unary hv h)
  | binaryExpression operator left right | logicalExpression operator left right =>
    refine agree_of_forms rfl ?_
    refine agree_bind (hv.one (h.child (by simp [children])) .value) fun left left' hleft => ?_
    refine agree_bind (hv.one (h.child (by simp [children])) .value) fun right right' hright => ?_
    refine agree_pure (.cons (related_call ?_ (.cons hleft (.cons hright .nil))) .nil)
    exact .operator (h.word (by simp [words]))
  | assignmentExpression operator left right => exact agree_of_form rfl (agree_assignment hv h)
  | conditionalExpression test consequent alternate =>
    refine agree_of_forms rfl ?_
    refine agree_bind (hv.one (h.child (by simp [children])) .value) fun test test' ht => ?_
    refine agree_bind (hv.one (h.child (by simp [children])) .value) fun first first' hf => ?_
    refine agree_bind (hv.one (h.child (by simp [children])) .value) fun other other' ho => ?_
    have hargs := List.Forall₂.cons ht (.cons hf (.cons ho .nil))
    exact agree_pure (.cons (related_fixedCall (by decide) hargs) .nil)
  | callExpression callee arguments => exact agree_of_form rfl (agree_callExpression hv h)
  | newExpression callee arguments => exact agree_of_form rfl (agree_newExpression hv h)
  | memberExpression object property computed => exact agree_of_form rfl (agree_member hv h)
  | jsxElement opening items => exact agree_of_form rfl (agree_jsxElement hv h)
  | _ => cases he

/-- One step keeps the agreement of two conversions. -/
theorem step_agrees (hv : Agrees c visit₁ visit₂) :
    Agrees c (step c.left visit₁) (step c.right visit₂) := by
  intro node h context
  by_cases he : node.isExpression
  · exact step_agrees_expression hv h he context
  by_cases hs : node.isStatement
  · exact step_agrees_statement hv h hs context
  obtain ⟨body, rfl⟩ | ⟨id, init, rfl⟩ | ⟨name, rfl⟩ | ⟨expression, rfl⟩ | ⟨value, rfl⟩ |
    ⟨-, hfails⟩ := step_part_cases he hs
  · cases h.inner
  · exact agree_of_form rfl ((agree_declarator hv h).imp fun _ _ hform => hform.1)
  · exact agree_of_related rfl (related_elementName (h.word (by simp [words])) context)
  · cases expression with
    | none => exact agree_of_related rfl (c.marker rfl)
    | some expression => exact agree_of_forms rfl (hv.forms (h.child (by simp [children])) .value)
  · exact agree_of_related rfl (related_elementText value)
  · rw [hfails, hfails]
    exact .error _

/-- Conversions of the same depth agree. -/
theorem convert_agrees (c : Comparison) (depth : Nat) :
    Agrees c (convert c.left depth) (convert c.right depth) := by
  induction depth with
  | zero => exact fun node _ context => .error _
  | succ depth ih => exact step_agrees ih

end Rule

namespace Comparison

variable {c : Comparison}

/-- The scripts that the comparison is about. -/
structure CoversScript (c : Comparison) (node : Node) : Prop where
  script : node.IsScript
  texts : ∀ m ∈ node.subtrees, c.HasTexts m

theorem agree_toProgram {node : Node} (h : c.CoversScript node) :
    Agree (Rule.RelatedPrograms c) (node.toProgram c.left) (node.toProgram c.right) := by
  obtain ⟨⟨hp, hg⟩, htexts⟩ := h
  cases node with
  | program body =>
    have hbody : ∀ s ∈ body, c.Covers s := fun s hs =>
      ⟨hg.child hs, hg.not_isProgram_child hs, (forall_subtrees_iff.1 htexts).2 s hs⟩
    exact Rule.agree_program (Rule.convert_agrees c _) hbody
  | _ => cases hp

end Comparison

end ScriptForms
