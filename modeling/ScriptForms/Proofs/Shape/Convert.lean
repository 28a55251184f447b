import ScriptForms.Proofs.Form.Compact
import ScriptForms.Proofs.Shape.Expression
import ScriptForms.Proofs.Shape.Statement

/-!
# The forms of scripts

Whatever a script is converted to follows the grammar of items: a program of comments, markers and
items, in which nothing stands where it would shift the meaning of what is around it.

* `Rule.step_shapes`: one step shapes a tree if the conversion of smaller trees shapes those.
* `Node.toProgram_shape`: the shape of the form of a script.
* `Node.toProgram_isFitting`: everything in it stands where a layout can put it on a line.
-/

namespace ScriptForms

open Node Form

namespace Rule

variable {visit : Visit}

/-- A node that is the tag of no element yields items. -/
theorem Shaped.of_items {node : Node} {forms : List Form} (ht : node.isTag = false)
    (h : AreItems forms) : Shaped node forms :=
  ⟨.inl h, fun htag => by rw [ht] at htag; cases htag⟩

theorem Shaped.of_marker {node : Node} {marker : Form} (ht : node.isTag = false)
    (hl : node.leavesMarker) (hm : marker.isMarker) : Shaped node [marker] :=
  ⟨.inr ⟨hl, marker, hm, rfl⟩, fun htag => by rw [ht] at htag; cases htag⟩

theorem shapes_of_item {node : Node} (ht : node.isTag = false) {x : Except Fault Form}
    (h : Yields x IsItem) : Yields (return [← x]) (Shaped node) :=
  yields_bind h fun _ hform => yields_pure (.of_items ht (List.forall_mem_singleton.2 hform))

theorem step_shapes_statement (scope : Scope) (node : Node) (hv : ShapesBelow visit node.size)
    (hg : node.Grammatical) (hs : node.isStatement) : Shapes (step scope visit) node := by
  intro context
  have hfits := (grammatical_iff.1 hg).1
  cases node with
  | unsupported kind text => exact yields_error _
  | expressionStatement expression comments =>
    have he : expression.isExpression := hfits
    have hforms := hv.child hg (by simp [children]) (standsAlone_of_isExpression he)
    exact (hforms.forms (leavesMarker_of_isExpression he) .value).imp fun _ => .of_items rfl
  | blockStatement body =>
    simp only [fits, List.all_eq_true] at hfits
    have hbody : Yields (statements visit body) AreItems :=
      yields_statements hv (fun s hm => size_of_child hm) (fun s hm => hg.child hm) hfits
    refine yields_bind hbody fun forms hforms => yields_pure (.of_items rfl ?_)
    split
    · exact hforms
    · exact areItems_singleton (isItem_sequence hforms)
  | emptyStatement => exact yields_ok (.of_marker rfl rfl rfl)
  | breakStatement => exact yields_ok (.of_marker rfl rfl rfl)
  | debuggerStatement =>
    exact yields_ok (.of_items rfl (areItems_singleton (isItem_call _ (by simp))))
  | returnStatement argument =>
    cases argument with
    | none => exact yields_ok (.of_items rfl (areItems_singleton (isItem_symbol "nil")))
    | some argument =>
      have he : argument.isExpression := by simpa [fits] using hfits
      have hforms := hv.child hg (by simp [children]) (standsAlone_of_isExpression he)
      exact (hforms.forms (leavesMarker_of_isExpression he) .value).imp fun _ => .of_items rfl
  | throwStatement argument =>
    refine yields_bind (hv.childOne hg (by simp [children]) hfits .value) fun form hform => ?_
    refine yields_pure (.of_items rfl (areItems_singleton (isItem_call "throw" ?_)))
    simpa using hform
  | ifStatement test consequent alternate => exact shapes_of_item rfl (yields_ifStatement hv hg)
  | switchStatement discriminant cases => exact shapes_of_item rfl (yields_switchStatement hv hg)
  | tryStatement block handler finalizer => exact shapes_of_item rfl (yields_tryStatement hv hg)
  | variableDeclaration kind declarations =>
    exact (yields_declarators yields_declarator hv hg).imp fun _ => .of_items rfl
  | functionDeclaration id params body =>
    simp only [fits, Bool.and_eq_true] at hfits
    have hbody : Shapes visit body :=
      hv.child hg (by simp [children]) (standsAlone_of_isBlock hfits.2)
    refine yields_bind (yields_bindingName id) fun name hname => ?_
    exact shapes_of_item rfl (yields_function (.inr rfl) (by simpa using hname) hbody)
  | importDeclaration specifiers source =>
    exact (yields_importDeclaration specifiers source).imp fun _ => .of_items rfl
  | exportDefaultDeclaration declaration =>
    simp only [fits, Bool.or_eq_true] at hfits
    have hs : declaration.standsAlone ∧ declaration.leavesMarker = false := by
      cases declaration <;>
        simp_all [isDefinition, isExpression, standsAlone, isStatement, leavesMarker]
    have hd : Shapes visit declaration := hv.child hg (by simp [children]) hs.1
    exact shapes_of_item rfl (yields_exportDefault (hd.one hs.2))
  | exportNamedDeclaration declaration specifiers =>
    refine (yields_exportNamed fun d hd => ?_).imp fun _ => .of_items rfl
    have hs : d.standsAlone ∧ d.leavesMarker = false := by
      cases declaration with
      | none => cases hd
      | some declaration =>
        cases hd
        simp only [fits, Bool.and_eq_true] at hfits
        cases d <;> simp_all [isDefinition, standsAlone, isStatement, leavesMarker]
    have hc : d ∈ (Node.exportNamedDeclaration declaration specifiers).children := by
      simp [children, Option.mem_toList.2 hd]
    exact Shapes.forms (hv.child hg hc hs.1) hs.2 .value
  | _ => cases hs

/-- The forms of an atom. -/
theorem shapes_of_isAtom {node : Node} (ht : node.isTag = false) {form : Form} (h : form.isAtom) :
    Yields (.ok [form] : Except Fault (List Form)) (Shaped node) :=
  yields_ok (.of_items ht (areItems_singleton (.atom h)))

theorem isAtom_identifier (scope : Scope) (name : String) (context : Context) :
    (identifier scope name context).isAtom := by
  unfold identifier
  repeat' split
  all_goals rfl

theorem step_shapes_expression (scope : Scope) (node : Node) (hv : ShapesBelow visit node.size)
    (hg : node.Grammatical) (he : node.isExpression) : Shapes (step scope visit) node := by
  intro context
  have hfits := (grammatical_iff.1 hg).1
  cases node with
  | unsupported kind text => exact yields_error _
  | identifier name => exact shapes_of_isAtom rfl (isAtom_identifier scope name context)
  | thisExpression =>
    exact yields_ok (.of_items rfl (areItems_singleton (isItem_thisAs _ (isItem_symbol _))))
  | nullLiteral | booleanLiteral value | numericLiteral raw | stringLiteral value
  | regExpLiteral pattern flags => exact shapes_of_isAtom rfl rfl
  | templateLiteral texts expressions => exact shapes_of_item rfl (yields_template hv hg)
  | arrayExpression elements => exact shapes_of_item rfl (yields_array hv hg)
  | objectExpression properties => exact shapes_of_item rfl (yields_object hv hg)
  | functionExpression id params body =>
    have hname : Yields (id.mapM bindingName) fun name => ∀ form ∈ name, form.isSymbol := by
      cases id with
      | none => exact yields_pure (by simp)
      | some id =>
        exact yields_bind (yields_bindingName id) fun name hname =>
          yields_pure (by simpa using hname)
    refine yields_bind hname fun name hname => ?_
    exact shapes_of_item rfl (yields_function (.inl rfl) hname (shapes_functionBody hv hg))
  | arrowFunctionExpression params body =>
    exact shapes_of_item rfl (yields_function (.inl rfl) (by simp) (shapes_arrowBody hv hg))
  | unaryExpression operator argument => exact shapes_of_item rfl (yields_unary hv hg)
  | binaryExpression operator left right | logicalExpression operator left right =>
    simp only [fits, Bool.and_eq_true] at hfits
    refine yields_bind (hv.childOne hg (by simp [children]) hfits.1 .value) fun left hleft => ?_
    refine yields_bind (hv.childOne hg (by simp [children]) hfits.2 .value) fun right hright => ?_
    refine yields_pure (.of_items rfl (areItems_singleton (isItem_call _ ?_)))
    simpa using ⟨hleft, hright⟩
  | assignmentExpression operator left right => exact shapes_of_item rfl (yields_assignment hv hg)
  | conditionalExpression test consequent alternate =>
    simp only [fits, Bool.and_eq_true] at hfits
    have htest := hv.childOne hg (by simp [children]) hfits.1.1 .value
    have hconsequent := hv.childOne hg (by simp [children]) hfits.1.2 .value
    have halternate := hv.childOne hg (by simp [children]) hfits.2 .value
    refine yields_bind htest fun test ht => yields_bind hconsequent fun consequent hc => ?_
    refine yields_bind halternate fun alternate ha => ?_
    refine yields_pure (.of_items rfl (areItems_singleton (isItem_call "if" ?_)))
    simpa using ⟨ht, hc, ha⟩
  | callExpression callee arguments => exact shapes_of_item rfl (yields_callExpression hv hg)
  | newExpression callee arguments => exact shapes_of_item rfl (yields_newExpression hv hg)
  | memberExpression object property computed => exact shapes_of_item rfl (yields_member hv hg)
  | jsxElement opening items => exact shapes_of_item rfl (yields_jsxElement hv hg)
  | _ => cases he

theorem step_shapes_container (scope : Scope) (expression : Option Node)
    (hspread : RefusesSpreads visit)
    (hv : ShapesBelow visit (Node.jsxExpressionContainer expression).size)
    (hg : (Node.jsxExpressionContainer expression).Grammatical) :
    Shapes (step scope visit) (.jsxExpressionContainer expression) := by
  intro context
  cases expression with
  | none => exact yields_ok (.of_marker rfl rfl rfl)
  | some expression =>
    have hfits := (grammatical_iff.1 hg).1
    simp only [fits, Option.all_some, Bool.or_eq_true] at hfits
    rw [step]
    rcases hfits with he | hs
    · have hforms := hv.child hg (by simp [children]) (standsAlone_of_isExpression he)
      exact (hforms.forms (leavesMarker_of_isExpression he) .value).imp fun _ => .of_items rfl
    · cases expression with
      | spreadElement argument =>
        obtain ⟨fault, hfault⟩ := hspread argument .value
        rw [hfault]
        exact yields_error fault
      | _ => cases hs

/-- One step shapes a tree if the conversion of smaller trees shapes those. -/
theorem step_shapes (scope : Scope) (visit : Visit) (node : Node) (hspread : RefusesSpreads visit)
    (hv : ShapesBelow visit node.size) (hg : node.Grammatical) (hs : node.standsAlone) :
    Shapes (step scope visit) node := by
  by_cases he : node.isExpression
  · exact step_shapes_expression scope node hv hg he
  by_cases ht : node.isStatement
  · exact step_shapes_statement scope node hv hg ht
  obtain ⟨body, rfl⟩ | ⟨id, init, rfl⟩ | ⟨name, rfl⟩ | ⟨expression, rfl⟩ | ⟨value, rfl⟩ |
    ⟨halone, -⟩ := step_part_cases he ht
  · cases hs
  · cases hs
  · intro context
    rw [step]
    unfold elementName
    split
    · exact yields_ok ⟨.inl (areItems_singleton (isItem_symbol name)), fun _ => ⟨_, rfl, rfl⟩⟩
    · exact yields_ok ⟨.inl (areItems_singleton (.atom rfl)), fun _ => ⟨_, rfl, rfl⟩⟩
  · exact step_shapes_container scope expression hspread hv hg
  · intro context
    rw [step]
    unfold elementText
    split
    · exact yields_ok (.of_marker rfl rfl rfl)
    · exact shapes_of_isAtom rfl rfl
  · rw [halone] at hs
    cases hs

/-- The conversion shapes every tree that is no deeper than its depth. -/
theorem convert_shapes (scope : Scope) (depth : Nat) :
    ShapesBelow (convert scope depth) (depth + 1) :=
  convert_holds scope (step_shapes scope) depth

end Rule

namespace Form

/-- In a program of comments, markers and items, everything stands where it may. -/
theorem settled_program {children : List Form}
    (h : ∀ c ∈ children, c.isComment ∨ c.isMarker ∨ c.IsItem) :
    (Form.program children).Settled := by
  refine settled_iff.2 fun c hc => ?_
  rcases h c hc with hcomment | hmarker | hitem
  · cases c with
    | comment text =>
      exact ⟨placed_comment rfl text, settled_of_parts_eq_nil rfl⟩
    | _ => cases hcomment
  · refine ⟨placed_marker (.inl rfl) hmarker, settled_of_parts_eq_nil ?_⟩
    cases c <;> first | rfl | cases hmarker
  · exact Sound.placed ⟨hitem, hitem.settled⟩ rfl

end Form

namespace Node

/-- The form of a script is a program of comments, markers and items. -/
theorem toProgram_forms {node : Node} (h : node.IsScript) {scope : Scope} {form : Form}
    (hf : node.toProgram scope = .ok form) : ∃ children, form = .program children ∧
      ∀ c ∈ children, c.isComment ∨ c.isMarker ∨ c.IsItem := by
  obtain ⟨hp, hg⟩ := h
  cases node with
  | program body =>
    have hfits := (grammatical_iff.1 hg).1
    simp only [fits, List.all_eq_true] at hfits
    exact Rule.yields_program (Rule.convert_shapes scope (Node.program body).size)
      (fun s hm => Nat.lt_succ_of_lt (size_of_child hm)) (fun s hm => hg.child hm) hfits form hf
  | _ => simp [isProgram] at hp

/-- Everything in the form of a script stands where it fits, so that every form of the program
stands on a line of its own once it is laid out. -/
theorem toProgram_isFitting {node : Node} (h : node.IsScript) {scope : Scope} {form : Form}
    (hf : node.toProgram scope = .ok form) : form.IsFitting := by
  obtain ⟨children, rfl, hchildren⟩ := toProgram_forms h hf
  exact (settled_program hchildren).isFitting

end Node

end ScriptForms
