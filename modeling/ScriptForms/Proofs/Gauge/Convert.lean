import ScriptForms.Proofs.Gauge.Expression

/-!
# The measures of scripts

One step keeps forms comparable to their trees, so that a conversion of any depth does, and with it
the program of a script.

* `Rule.step_weighs`, `Rule.convert_weighs`: from one step to all depths.
* `Gauge.rel_toProgram`: the program of a script.
-/

namespace ScriptForms

open Node Form

namespace Rule

open Gauge

variable {M : Type} [AddMonoid M] {g : Gauge M} {visit : Visit} {node : Node}

/-- A rule that gives one form. -/
theorem weighs_of_one {total : M} {x : Except Fault Form} (h : Yields x (g.WeighsOne total)) :
    Yields (return [← x]) (g.Weighs total) :=
  yields_bind h fun _ hform => yields_pure hform.singleton

/-- A node without measured nodes below it and its form, which is no symbol. -/
theorem weighs_leaf {form : Form} (hr : g.Rel (g.weight form) (g.own node))
    (hs : form.symbol? = none) (hb : g.below node = []) :
    Yields (.ok [form] : Except Fault (List Form)) (g.Weighs (g.tally node)) := by
  have hform : g.WeighsOne (g.tally node) form := by
    rw [g.tally_of_below hb]
    exact ⟨hr, isHead_of_symbol?_eq_none hs⟩
  exact yields_ok hform.singleton

/-- A node that measures nothing, whose form measures nothing. -/
theorem weighs_nothing {form : Form} (hw : g.weight form = 0) (hs : g.IsHead form)
    (ho : g.own node = 0) (hb : g.below node = []) :
    Yields (.ok [form] : Except Fault (List Form)) (g.Weighs (g.tally node)) := by
  have hform : g.WeighsOne (g.tally node) form := by
    rw [g.tally_of_below hb, ho]
    exact ⟨by rw [hw]; exact g.zero, hs⟩
  exact yields_ok hform.singleton

theorem weighs_identifier {name : String} (h : g.Covers (.identifier name)) (context : Context) :
    g.WeighsOne (g.name name + g.asking context (.identifier name))
      (identifier g.scope name context) := by
  have hplain : ∀ text, IsPlainWord text → context.asks = false →
      g.WeighsOne (g.name name + g.asking context (.identifier name)) (.symbol text) := by
    intro text ht hc
    refine ⟨?_, g.isHead_symbol (ne_captureHead_of_not_mem ht.1)⟩
    rw [g.plain ht, g.asking_of_not_asks hc, add_zero]
    simpa using g.idle g.zero
  unfold identifier
  split
  · rename_i hnaming
    split
    · rename_i hasked
      simp only [Bool.and_eq_true] at hasked
      have hhost : g.asking context (.identifier name) = g.host name := by
        simp [asking, Context.asks, hostOf, hnaming, hasked]
      rw [hhost]
      exact ⟨g.hosted h.admits hasked.2,
        g.isHead_symbol (ne_captureHead_of_not_mem (hostName_not_mem_receiverWords name))⟩
    · rename_i hasked
      have hhost : g.asking context (.identifier name) = 0 := by
        cases hcheck : context.checkGlobal <;> simp_all [asking, Context.asks, hostOf]
      rw [hhost, add_zero]
      exact ⟨g.symbol h.admits rfl, by simpa [IsHead, symbol?] using g.identifier h.admits⟩
  · rename_i hnaming
    exact hplain _ (isPlainWord_getterName name) (by simp [Context.asks, hnaming])
  · rename_i hnaming
    exact hplain _ (isPlainWord_dotGetterName name) (by simp [Context.asks, hnaming])
  · rename_i hnaming
    exact hplain _ (isPlainWord_methodName name) (by simp [Context.asks, hnaming])

theorem step_weighs_statement (hv : Weighs g visit) (h : g.Covers node)
    (hs : node.isStatement) (context : Context) :
    Yields (step g.scope visit node context) (g.Weighs (g.tally node)) := by
  cases node with
  | unsupported kind text => exact yields_error _
  | expressionStatement expression comments =>
    rw [g.tally_of_single rfl rfl]
    exact hv.forms (h.child (by simp [children])) rfl
  | blockStatement body =>
    rw [g.tally_of_own rfl]
    refine yields_bind (weighs_statements hv fun s hm => h.child hm) fun forms hforms => ?_
    refine yields_pure ?_
    split
    · exact hforms
    · exact hforms.sequence.singleton
  | emptyStatement | breakStatement =>
    exact weighs_nothing (g.weight_of_isMarker rfl) (isHead_of_symbol?_eq_none rfl) rfl rfl
  | debuggerStatement =>
    exact weighs_nothing (g.weight_call (by decide) []) (isHead_of_symbol?_eq_none rfl) rfl rfl
  | returnStatement argument =>
    cases argument with
    | none => exact weighs_nothing g.weight_nil (g.isHead_symbol (by decide)) rfl rfl
    | some argument =>
      rw [g.tally_of_single rfl rfl]
      exact hv.forms (h.child (by simp [children])) rfl
  | throwStatement argument =>
    rw [g.tally_of_single rfl rfl]
    refine yields_bind (hv.one (h.child (by simp [children])) rfl) fun form hform => ?_
    exact yields_pure (weighsOne_call (by decide) (by simpa using hform.rel)).singleton
  | ifStatement test consequent alternate => exact weighs_of_one (weighs_ifStatement hv h)
  | switchStatement discriminant cases => exact weighs_of_one (weighs_switchStatement hv h)
  | tryStatement block handler finalizer => exact weighs_of_one (weighs_tryStatement hv h)
  | variableDeclaration kind declarations =>
    rw [g.tally_of_own rfl]
    exact weighs_trees fun d hd => weighs_declarator hv (h.child hd)
  | functionDeclaration id params body =>
    rw [g.tally_of_own rfl]
    have hid : g.Covers id := h.child (by simp [children])
    refine yields_bind (weighs_bindingName hid) fun name hname => weighs_of_one ?_
    have hbody : g.Covers body := h.child (by simp [children])
    have hnamed : g.Rel (g.weights (some name).toList) (g.tally id) := by simpa using hname
    simpa [below, kept, children] using
      weighs_function hv (show IsPlainWord "defn" by decide) hnamed
        (fun p hp => h.child (by simp [children, hp])) hbody
  | importDeclaration specifiers source => exact weighs_importDeclaration h
  | exportDefaultDeclaration declaration =>
    rw [g.tally_of_single rfl rfl]
    exact weighs_of_one (weighs_exportDefault hv (h.child (by simp [children])))
  | exportNamedDeclaration declaration specifiers => exact weighs_exportNamed hv h
  | _ => cases hs

theorem step_weighs_expression (hv : Weighs g visit) (h : g.Covers node)
    (he : node.isExpression) (hi : node.isIdentifier = false) (context : Context) :
    Yields (step g.scope visit node context) (g.Weighs (g.tally node)) := by
  cases node with
  | unsupported kind text => exact yields_error _
  | identifier name => cases hi
  | thisExpression =>
    have hr : receiver ∈ [receiver, placeReceiver] := by simp
    have hsymbol : g.Rel (g.weight (.symbol receiver)) (g.name receiver) :=
      g.symbol (g.receiver hr).1 rfl
    exact weighs_leaf (g.capture hr (g.name_comm receiver g.this) hsymbol) rfl rfl
  | nullLiteral => exact weighs_nothing g.weight_nil (g.isHead_symbol (by decide)) rfl rfl
  | booleanLiteral value | stringLiteral value =>
    exact weighs_nothing (by simp) (isHead_of_symbol?_eq_none rfl) rfl rfl
  | numericLiteral raw => exact weighs_leaf (g.written (.number raw)) rfl rfl
  | regExpLiteral pattern flags => exact weighs_leaf (g.written (.regex pattern flags)) rfl rfl
  | templateLiteral texts expressions => exact weighs_of_one (weighs_template hv h)
  | arrayExpression elements => exact weighs_of_one (weighs_array hv h)
  | objectExpression properties => exact weighs_of_one (weighs_object hv h)
  | functionExpression id params body =>
    rw [tally_functionExpression]
    have hid : Yields (id.mapM bindingName) fun name =>
        g.Rel (g.weights name.toList) (g.tallies id.toList) := by
      cases id with
      | none => exact yields_pure g.zero
      | some id =>
        have hcovers : g.Covers id := h.child (by simp [children])
        refine yields_bind (weighs_bindingName hcovers) fun name hname => yields_pure ?_
        simpa using hname
    refine yields_bind hid fun name hname => weighs_of_one ?_
    exact weighs_function hv (by decide) hname (fun p hp => h.child (by simp [children, hp]))
      (h.child (by simp [children]))
  | arrowFunctionExpression params body =>
    rw [tally_arrowFunctionExpression]
    exact weighs_of_one (weighs_lambda hv (fun p hp => h.child (by simp [children, hp]))
      (h.child (by simp [children])))
  | unaryExpression operator argument => exact weighs_of_one (weighs_unary hv h)
  | binaryExpression operator left right | logicalExpression operator left right =>
    rw [g.tally_of_own rfl]
    refine yields_bind (hv.one (h.child (by simp [children])) rfl) fun left hleft => ?_
    refine yields_bind (hv.one (h.child (by simp [children])) rfl) fun right hright => ?_
    refine yields_pure (weighsOne_idleCall (g.word h.admits rfl) ?_).singleton
    simpa [below, kept, children] using g.add hleft.rel hright.rel
  | assignmentExpression operator left right => exact weighs_of_one (weighs_assignment hv h)
  | conditionalExpression test consequent alternate =>
    rw [g.tally_of_own rfl]
    refine yields_bind (hv.one (h.child (by simp [children])) rfl) fun test ht => ?_
    refine yields_bind (hv.one (h.child (by simp [children])) rfl) fun consequent hc => ?_
    refine yields_bind (hv.one (h.child (by simp [children])) rfl) fun alternate ha => ?_
    refine yields_pure (weighsOne_call (by decide) ?_).singleton
    simpa [below, kept, children] using g.add ht.rel (g.add hc.rel ha.rel)
  | callExpression callee arguments => exact weighs_of_one (weighs_callExpression hv h)
  | newExpression callee arguments => exact weighs_of_one (weighs_newExpression hv h)
  | memberExpression object property computed => exact weighs_of_one (weighs_member hv h)
  | jsxElement opening items => exact weighs_of_one (weighs_jsxElement hv h)
  | _ => cases he

theorem weighs_elementName {name : String} (h : g.Covers (.jsxIdentifier name))
    (context : Context) : g.WeighsOne 0 (elementName name context) := by
  unfold elementName
  split
  · rename_i hcomponent
    simp only [Bool.and_eq_true] at hcomponent
    obtain ⟨hweight, hhead⟩ := g.word h.admits (show name ∈ ruleWord? _ by
      simp [ruleWord?, hcomponent.2])
    exact ⟨by rw [hweight]; exact g.zero, by simpa [IsHead, symbol?] using hhead⟩
  · exact ⟨by simpa using g.zero, isHead_of_symbol?_eq_none rfl⟩

theorem step_weighs_part (hv : Weighs g visit) (h : g.Covers node) (he : ¬node.isExpression)
    (hs : ¬node.isStatement) (context : Context) :
    Yields (step g.scope visit node context) (g.Weighs (g.tally node)) := by
  obtain ⟨body, rfl⟩ | ⟨id, init, rfl⟩ | ⟨name, rfl⟩ | ⟨expression, rfl⟩ | ⟨value, rfl⟩ |
    ⟨-, hfails⟩ := step_part_cases he hs
  · rw [g.tally_of_own rfl]
    exact weighs_of_one (weighs_program hv fun s hm => h.child hm)
  · exact weighs_of_one (weighs_declarator hv h)
  · have htotal : g.tally (.jsxIdentifier name) = 0 := g.tally_of_own rfl
    rw [htotal]
    exact yields_ok (weighs_elementName h context).singleton
  · cases expression with
    | none =>
      exact weighs_nothing (g.weight_of_isMarker rfl) (isHead_of_symbol?_eq_none rfl) rfl rfl
    | some expression =>
      rw [g.tally_of_single rfl rfl]
      exact hv.forms (h.child (by simp [children])) rfl
  · refine weighs_nothing ?_ (isHead_of_symbol?_eq_none ?_) rfl rfl
    · unfold elementText
      split
      · exact g.weight_of_isMarker rfl
      · exact g.weight_string value
    · unfold elementText
      split <;> rfl
  · rw [hfails]
    exact yields_error _

/-- One step keeps forms comparable to their trees. -/
theorem step_weighs (hv : Weighs g visit) : Weighs g (step g.scope visit) := by
  intro node h context
  cases hi : node.isIdentifier with
  | true =>
    cases node with
    | identifier name =>
      rw [g.tally_identifier]
      exact yields_ok (weighs_identifier h context).singleton
    | _ => cases hi
  | false =>
    have hasking : g.asking context node = 0 := by
      simp [asking, g.hostOf_of_not_isIdentifier (by simp [hi] : ¬node.isIdentifier)]
    rw [hasking, add_zero]
    by_cases he : node.isExpression
    · exact step_weighs_expression hv h he hi context
    by_cases hs : node.isStatement
    · exact step_weighs_statement hv h hs context
    exact step_weighs_part hv h he hs context

/-- The forms of a conversion of any depth compare to the trees that the gauge covers. -/
theorem convert_weighs (g : Gauge M) (depth : Nat) : Weighs g (convert g.scope depth) := by
  induction depth with
  | zero => exact fun node _ context => yields_error _
  | succ depth ih => exact step_weighs ih

end Rule

namespace Gauge

/-- The program of a script compares to the script. -/
theorem rel_toProgram {M : Type} [AddMonoid M] (g : Gauge M) {node : Node} (h : g.Covers node)
    (hp : node.isProgram) :
    Yields (node.toProgram g.scope) fun form => g.Rel (g.weight form) (g.tally node) := by
  cases node with
  | program body =>
    rw [g.tally_of_own rfl]
    exact (Rule.weighs_program (Rule.convert_weighs g _) fun s hs => h.child hs).imp
      fun _ hform => hform.rel
  | _ => cases hp

end Gauge

end ScriptForms
