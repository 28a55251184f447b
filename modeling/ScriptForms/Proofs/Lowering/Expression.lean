import ScriptForms.Proofs.Lowering.Statement

/-!
# What the rules for expressions give

One lemma for each rule for literals, functions, operations, accesses and elements.

* `Lowering.yields_templateParts`: a template has one text more than expressions.
* `Lowering.yields_member`: what an access names is an identifier.
* `Lowering.yields_expressionRule`: all expressions, spreads and parts of elements.
-/

namespace ScriptForms.Lowering

open Node ScriptForms.Tree

variable {source : List Char} {lower : Lower} {tree child : Tree} {kind : String}

/-! ### Literals -/

theorem yields_regex : Yields (regex source tree) (ProperIn isExpression) :=
  yields_bind yields_field fun _ _ => yields_pure (.leaf rfl rfl rfl)

/-- What the parts of a template are: one text more than expressions, all of which are proper. -/
theorem yields_templateParts (hl : Sound source lower) {substitutions : List Tree}
    (hs : ∀ s ∈ substitutions, s.Regular source ∧ s.kind = "template_substitution")
    (stop offset : Nat) :
    Yields (templateParts source lower stop offset substitutions) fun parts =>
      parts.1.length = parts.2.length + 1 ∧ ∀ node ∈ parts.2, ProperIn isExpression node := by
  induction substitutions generalizing offset with
  | nil => exact yields_pure (by simp)
  | cons substitution rest ih =>
    rw [List.forall_mem_cons] at hs
    obtain ⟨⟨hregular, hkind⟩, hrest⟩ := hs
    refine yields_bind (yields_lowerFirst hl hregular hkind .expression _ (by decide))
      fun expression he => ?_
    refine yields_bind (ih hrest substitution.stop) fun parts hparts => yields_pure ?_
    exact ⟨congrArg (· + 1) hparts.1, List.forall_mem_cons.2 ⟨he, hparts.2⟩⟩

/-- The key of a member, which is computed if it is an expression. -/
theorem yields_propertyKey (hl : Sound source lower) (ht : tree.Regular source) {role : Role}
    (ha : role.admits source tree) : Yields (propertyKey source lower tree) fun entry =>
      ProperIn (fun node => node.keyFits entry.2) entry.1 := by
  unfold propertyKey
  split
  · rename_i hk
    exact yields_pure (properIn_nameOf (Role.isWord_of_admits ha (by rw [hk]; decide)) fun _ => rfl)
  · rename_i hk
    exact yields_pure (properIn_nameOf (Role.isWord_of_admits ha (by rw [hk]; decide)) fun _ => rfl)
  · rename_i hk
    refine yields_bind (hl.yields_kind ht hk (by decide)) fun node hn => yields_pure ?_
    exact hn.mono isKey_of_isString
  · rename_i hk
    exact yields_bind (hl.yields_kind ht hk (by decide)) fun node hn => yields_pure hn
  · rename_i hk
    refine yields_bind (yields_lowerFirst hl ht hk .expression _ (by decide)) fun node hn => ?_
    exact yields_pure hn
  · exact yields_pure (properIn_unsupported fun _ _ => rfl)

theorem properIn_tagName {name : Tree} : ProperIn isTag (tagName source name) := by
  unfold tagName
  split
  · exact .leaf rfl rfl rfl
  · exact .leaf rfl rfl rfl
  · exact properIn_unsupported fun _ _ => rfl

section Rules

variable (hl : Sound source lower) (ht : tree.Regular source)
include hl ht

theorem yields_template : Yields (template source lower tree) (ProperIn isExpression) := by
  have hsubstitutions : ∀ s ∈ tree.named.filter (·.kind == "template_substitution"),
      s.Regular source ∧ s.kind = "template_substitution" := by
    intro s hs
    obtain ⟨hnamed, hkind⟩ := List.mem_filter.1 hs
    exact ⟨ht.below (mem_children_of_mem_named hnamed), beq_iff_eq.1 hkind⟩
  refine yields_bind (yields_templateParts hl hsubstitutions _ _) fun parts hparts => ?_
  obtain ⟨texts, expressions⟩ := parts
  exact yields_pure (.intro rfl rfl rfl (by grind))

theorem yields_pair (hk : tree.kind = "pair") :
    Yields (pair source lower tree) (ProperIn isObjectMember) := by
  refine yields_bind yields_field fun key hkey => ?_
  have hany : (Slot.field "key", Role.any) ∈ rows "pair" := by decide
  refine yields_bind (yields_propertyKey hl (ht.below (mem_children_of_mem_trees hkey))
    (ht.admits hk hany hkey)) fun entry hentry => ?_
  refine yields_bind (yields_lowerAt hl ht hk .expression (by decide)) fun value hv => ?_
  exact yields_pure (.intro rfl rfl rfl (by grind))

theorem yields_objectMethod (hk : tree.kind = "method_definition") :
    Yields (objectMethod source lower tree) (ProperIn isObjectMember) := by
  unfold objectMethod
  split
  · exact yields_pure (properIn_unsupported fun _ _ => rfl)
  refine yields_bind yields_field fun key hkey => ?_
  have hany : (Slot.field "name", Role.any) ∈ rows "method_definition" := by decide
  refine yields_bind (yields_propertyKey hl (ht.below (mem_children_of_mem_trees hkey))
    (ht.admits hk hany hkey)) fun entry hentry => ?_
  refine yields_bind (yields_params ht hk (by decide)) fun params hparams => ?_
  refine yields_bind (yields_lowerBlock hl ht hk (by decide)) fun body hbody => ?_
  exact yields_pure (.intro rfl rfl rfl (by grind))

theorem yields_objectMember (ha : Role.any.admits source tree) :
    Yields (objectMember source lower tree) (ProperIn isObjectMember) := by
  unfold objectMember
  split
  · rename_i hk
    exact yields_pair hl ht hk
  · rename_i hk
    have hname : ∀ p : Node → Bool, (∀ name, p (.identifier name)) →
        ProperIn p (nameOf source tree) := fun p hp =>
      properIn_nameOf (Role.isWord_of_admits ha (by rw [hk]; decide)) hp
    have hkey := hname isKey fun _ => rfl
    have hvalue := hname isExpression fun _ => rfl
    exact yields_pure (.intro rfl rfl rfl (by grind [keyFits]))
  · rename_i hk
    exact yields_objectMethod hl ht hk
  · rename_i hk
    exact (hl.yields_kind ht hk (by decide)).imp fun node hn => hn.mono isObjectMember_of_isSpread
  · exact yields_pure (properIn_unsupported fun _ _ => rfl)

/-! ### Functions -/

theorem yields_functionExpression (hk : tree.kind = kind)
    (hname : (.field "name", .word) ∈ rows kind)
    (hparams : (.field "parameters", .only "formal_parameters") ∈ rows kind)
    (hbody : (.field "body", .only "statement_block") ∈ rows kind) :
    Yields (functionExpression source lower tree) (ProperIn isExpression) := by
  unfold functionExpression
  split
  · exact yields_pure (properIn_unsupported fun _ _ => rfl)
  have hid : ∀ node ∈ ((tree.child? "name").map (nameOf source)).toList,
      ProperIn isBinding node := by
    intro node hn
    obtain ⟨name, hc, rfl⟩ := Option.map_eq_some_iff.1 (Option.mem_toList.1 hn)
    exact properIn_nameOf (ht.isWord hk (.field "name") hname (mem_childrenAt_of_child? hc))
      fun _ => rfl
  have hall := all_of_properIn hid
  refine yields_bind (yields_params ht hk hparams) fun params hp => ?_
  refine yields_bind (yields_lowerBlock hl ht hk hbody) fun body hb => ?_
  exact yields_pure (.intro rfl rfl rfl (by grind))

theorem yields_arrowFunction (hk : tree.kind = "arrow_function") :
    Yields (arrowFunction source lower tree) (ProperIn isExpression) := by
  have hparams : Yields (arrowParams source tree) fun nodes => ∀ node ∈ nodes,
      ProperIn isBinding node := by
    unfold arrowParams
    split
    · rename_i only hc
      have hany : (Slot.field "parameter", Role.any) ∈ rows "arrow_function" := by decide
      refine yields_pure (List.forall_mem_singleton.2 ?_)
      exact properIn_param (ht.admits hk hany (mem_childrenAt_of_child? hc))
    · exact yields_params ht hk (by decide)
  unfold arrowFunction
  split
  · exact yields_pure (properIn_unsupported fun _ _ => rfl)
  refine yields_bind hparams fun params hp => ?_
  refine yields_bind (yields_lowerAt hl ht hk .body (by decide)) fun body hb => ?_
  exact yields_pure (.intro rfl rfl rfl (by grind))

/-! ### Operations -/

omit hl in
theorem yields_operatorOf (operators : List String) (hk : tree.kind = kind)
    (hrow : (.field "operator", .operator operators) ∈ rows kind) :
    Yields (operatorOf source tree) fun operator => operators.contains operator :=
  yields_bind yields_field fun _ hc =>
    yields_pure (ht.operator_mem hk (.field "operator") hrow hc)

theorem yields_unary (hk : tree.kind = "unary_expression") :
    Yields (unary source lower tree) (ProperIn isExpression) := by
  refine yields_bind (yields_operatorOf ht unaryOperators hk (by decide)) fun operator ho => ?_
  refine yields_bind (yields_lowerAt hl ht hk .expression (by decide)) fun argument ha => ?_
  exact yields_pure (.intro rfl ho rfl (by grind))

theorem yields_binary (hk : tree.kind = "binary_expression") :
    Yields (binary source lower tree) (ProperIn isExpression) := by
  refine yields_bind (yields_operatorOf ht (Source.binaryOperators.map Prod.fst) hk (by decide))
    fun operator ho => ?_
  refine yields_bind (yields_lowerAt hl ht hk .expression (by decide)) fun left hleft => ?_
  refine yields_bind (yields_lowerAt hl ht hk .expression (by decide)) fun right hright => ?_
  split
  · exact yields_pure (.intro rfl ho rfl (by grind))
  · exact yields_pure (.intro rfl ho rfl (by grind))

theorem yields_assignment {operator : String} (hk : tree.kind = kind)
    (ho : Source.assignmentOperators.contains operator)
    (hleft : (.field "left", .expression) ∈ rows kind)
    (hright : (.field "right", .expression) ∈ rows kind) :
    Yields (assignment source lower operator tree) (ProperIn isExpression) := by
  refine yields_bind (yields_lowerAt hl ht hk .expression hleft) fun left hleft => ?_
  refine yields_bind (yields_lowerAt hl ht hk .expression hright) fun right hright => ?_
  exact yields_pure (.intro rfl ho rfl (by grind))

theorem yields_augmentedAssignment (hk : tree.kind = "augmented_assignment_expression") :
    Yields (augmentedAssignment source lower tree) (ProperIn isExpression) :=
  yields_bind (yields_operatorOf ht Source.assignmentOperators hk (by decide)) fun _ ho =>
    yields_assignment hl ht hk ho (by decide) (by decide)

theorem yields_ternary (hk : tree.kind = "ternary_expression") :
    Yields (ternary source lower tree) (ProperIn isExpression) := by
  refine yields_bind (yields_lowerAt hl ht hk .expression (by decide)) fun test htest => ?_
  refine yields_bind (yields_lowerAt hl ht hk .expression (by decide)) fun consequent hc => ?_
  refine yields_bind (yields_lowerAt hl ht hk .expression (by decide)) fun alternate ha => ?_
  exact yields_pure (.intro rfl rfl rfl (by grind))

/-! ### Accesses and calls -/

omit ht in
theorem yields_arguments {arguments : Tree} (ht : arguments.Regular source)
    (hk : arguments.kind = "arguments") : Yields (lowerNamed lower arguments) fun nodes =>
      ∀ node ∈ nodes, ProperIn isItem node :=
  yields_lowerNamed hl ht hk .item (by decide)

theorem yields_call (hk : tree.kind = "call_expression") :
    Yields (call source lower tree) (ProperIn isExpression) := by
  refine yields_bind yields_field fun arguments ha => ?_
  split
  · exact yields_pure (properIn_unsupported fun _ _ => rfl)
  · rename_i hkind
    simp only [Bool.or_eq_true, bne_iff_ne, not_or, Decidable.not_not] at hkind
    refine yields_bind (yields_lowerAt hl ht hk .expression (by decide)) fun callee hc => ?_
    refine yields_bind (yields_arguments hl (ht.below (mem_children_of_mem_trees ha)) hkind.2)
      fun items hitems => ?_
    exact yields_pure (.intro rfl rfl rfl (by grind [isItem]))

theorem yields_construction (hk : tree.kind = "new_expression") :
    Yields (construction source lower tree) (ProperIn isExpression) := by
  refine yields_bind (yields_lowerAt hl ht hk .expression (by decide)) fun callee hc => ?_
  split
  · rename_i arguments ha
    have hkind : arguments.kind = "arguments" :=
      ht.kind_eq hk (.field "arguments") (by decide) (mem_childrenAt_of_child? ha)
    refine yields_bind (yields_arguments hl (ht.below (mem_children_of_child? ha)) hkind)
      fun items hitems => ?_
    exact yields_pure (.intro rfl rfl rfl (by grind [isItem]))
  · exact yields_pure (.intro rfl rfl rfl (by grind))

/-- What an access names is an identifier. -/
theorem yields_member (hk : tree.kind = "member_expression") :
    Yields (member source lower tree) (ProperIn isExpression) := by
  refine yields_bind yields_field fun property hp => ?_
  split
  · exact yields_pure (properIn_unsupported fun _ _ => rfl)
  have hproperty : ProperIn isIdentifier (nameOf source property) :=
    properIn_nameOf (ht.isWord hk (.field "property") (by decide) hp) fun _ => rfl
  refine yields_bind (yields_lowerAt hl ht hk .expression (by decide)) fun object ho => ?_
  exact yields_pure (.intro rfl rfl rfl (by grind))

theorem yields_subscript (hk : tree.kind = "subscript_expression") :
    Yields (subscript source lower tree) (ProperIn isExpression) := by
  unfold subscript
  split
  · exact yields_pure (properIn_unsupported fun _ _ => rfl)
  refine yields_bind (yields_lowerAt hl ht hk .expression (by decide)) fun object ho => ?_
  refine yields_bind (yields_lowerAt hl ht hk .expression (by decide)) fun index hi => ?_
  exact yields_pure (.intro rfl rfl rfl (by grind))

/-! ### Elements -/

theorem yields_opening (selfClosing : Bool) :
    Yields (opening source lower selfClosing tree) (ProperIn isOpening) := by
  have hattributes : Yields ((tree.childrenAt "attribute").mapM (openingAttribute source lower))
      fun nodes => ∀ node ∈ nodes, ProperIn isAttribute node := by
    refine yields_mapM fun part hp => ?_
    unfold openingAttribute
    split
    · rename_i hk
      exact hl.yields_kind (ht.below (mem_children_of_mem_childrenAt hp)) hk (by decide)
    · exact yields_pure (properIn_unsupported fun _ _ => rfl)
  refine yields_bind yields_field fun name _ => ?_
  have hname : ProperIn isTag (tagName source name) := properIn_tagName
  refine yields_bind hattributes fun nodes hnodes => ?_
  exact yields_pure (.intro rfl rfl rfl (by grind))

theorem yields_element (hk : tree.kind = "jsx_element") :
    Yields (element source lower tree) (ProperIn isElement) := by
  have hrow : (Slot.betweenTags, Role.child) ∈ rows "jsx_element" := by decide
  have hchildren : Yields (tree.content.mapM lower) fun nodes => ∀ node ∈ nodes,
      ProperIn isElementChild node :=
    yields_mapM fun _ hc => hl.yields_slot ht hk hrow hc
  refine yields_bind yields_field fun tag htag => ?_
  split
  · exact yields_pure (properIn_unsupported fun _ _ => rfl)
  have htag := ht.below (mem_children_of_mem_trees htag)
  refine yields_bind (yields_opening hl htag false) fun opening hopening => ?_
  refine yields_bind hchildren fun nodes hnodes => ?_
  exact yields_pure (.intro rfl rfl rfl (by grind))

theorem yields_selfClosingElement :
    Yields (selfClosingElement source lower tree) (ProperIn isElement) := by
  refine yields_bind (yields_opening hl ht true) fun opening hopening => ?_
  exact yields_pure (.intro rfl rfl rfl (by grind))

theorem yields_elementAttribute (hk : tree.kind = "jsx_attribute") :
    Yields (elementAttribute source lower tree) (ProperIn isAttribute) := by
  have hrow : (Slot.behindFirst, Role.value) ∈ rows "jsx_attribute" := by decide
  have hvalue : Yields (tree.named.tail.head?.mapM (attributeValue source lower))
      fun value => ∀ node ∈ value.toList, ProperIn isAttributeValue node := by
    refine yields_optionMapM fun part hp => ?_
    unfold attributeValue
    split
    · exact yields_pure (.leaf rfl rfl rfl)
    · exact hl.yields_slot ht hk hrow (List.mem_of_mem_head? hp)
  refine yields_bind (yields_firstNamed _) fun name _ => ?_
  split
  · exact yields_pure (properIn_unsupported fun _ _ => rfl)
  have hname : ProperIn isTag (.jsxIdentifier (textOf source name)) := .leaf rfl rfl rfl
  refine yields_bind hvalue fun value hv => ?_
  have hall := all_of_properIn hv
  exact yields_pure (.intro rfl rfl rfl (by grind))

/-! ### All expressions -/

/-- An expression, a spread or a part of an element is of the class of its kind. -/
theorem yields_expressionRule (hw : tree.kind ∈ nameKinds → tree.isWord source) {rule : Lower}
    (hr : expressionRule? source lower tree.kind = some rule) :
    Yields (rule tree) (ProperIn (classOf tree.kind)) := by
  have hname (hn : tree.kind ∈ nameKinds) : ProperIn isIdentifier (nameOf source tree) :=
    properIn_nameOf (hw hn) fun _ => rfl
  unfold expressionRule? at hr
  split at hr
  case h_34 => cases hr
  all_goals
    rename_i hk
    obtain rfl := Option.some.inj hr
    rw [hk]
  · exact yields_lowerFirst hl ht hk .expression _ (by decide)
  · exact yields_pure (hname (by rw [hk]; decide))
  · exact yields_pure (hname (by rw [hk]; decide))
  · exact yields_pure (hname (by rw [hk]; decide))
  · exact yields_pure (.leaf rfl rfl rfl)
  · exact yields_pure (.leaf rfl rfl rfl)
  · exact yields_pure (.leaf rfl rfl rfl)
  · exact yields_pure (.leaf rfl rfl rfl)
  · exact yields_pure (.leaf rfl rfl rfl)
  · exact yields_pure (.leaf rfl rfl rfl)
  · exact yields_pure (.leaf rfl rfl rfl)
  · exact yields_regex
  · exact yields_template hl ht
  · refine yields_bind (yields_lowerNamed hl ht hk .item (by decide)) fun items hitems => ?_
    exact yields_pure (.intro rfl rfl rfl (by grind [isItem]))
  · have hany : (Slot.anywhere, Role.any) ∈ rows "object" := by decide
    have hmembers := yields_mapM fun child (hc : child ∈ tree.named) =>
      yields_objectMember hl (ht.below (mem_children_of_mem_named hc)) (ht.admits hk hany hc)
    exact yields_bind hmembers fun members hm => yields_pure (.intro rfl rfl rfl (by grind))
  · refine yields_bind (yields_lowerFirst hl ht hk .expression _ (by decide)) fun node hn => ?_
    exact yields_pure (.intro rfl rfl rfl (by grind))
  · exact yields_functionExpression hl ht hk (by decide) (by decide) (by decide)
  · exact yields_functionExpression hl ht hk (by decide) (by decide) (by decide)
  · exact yields_arrowFunction hl ht hk
  · exact yields_unary hl ht hk
  · exact yields_binary hl ht hk
  · exact yields_assignment hl ht hk (by decide) (by decide) (by decide)
  · exact yields_augmentedAssignment hl ht hk
  · exact yields_ternary hl ht hk
  · exact yields_call hl ht hk
  · exact yields_construction hl ht hk
  · exact yields_member hl ht hk
  · exact yields_subscript hl ht hk
  · exact yields_element hl ht hk
  · exact yields_selfClosingElement hl ht
  · exact yields_elementAttribute hl ht hk
  · refine yields_bind (yields_lowerFirst? hl ht hk .item (by decide)) fun value hv => ?_
    have hall : value.all fun node => node.isExpression || node.isSpread := all_of_properIn hv
    exact yields_pure (.intro rfl rfl rfl (by grind))
  · exact yields_pure (.leaf rfl rfl rfl)

end Rules

end ScriptForms.Lowering
