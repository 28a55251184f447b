import ScriptForms.Proofs.Lowering.Basic

/-!
# What the rules for statements give

One lemma for each rule for statements, declarations, imports and exports. A construct that is kept
as its text belongs to every class.

* `Lowering.yields_params`: the parameters of a function are names or patterns.
* `Lowering.yields_statementRule`: all statements.
-/

namespace ScriptForms.Lowering

open Node ScriptForms.Tree

-- A rule gives one kind of tree, so what its tree holds is known from the parts.
attribute [scoped grind =] fits Node.children

variable {source : List Char} {lower : Lower} {tree child : Tree} {kind : String}

/-! ### Names and parameters -/

theorem properIn_unsupported {p : Node → Bool} (h : ∀ rule text, p (.unsupported rule text)) :
    ProperIn p (unsupported source tree) :=
  Node.properIn_unsupported (h _ _)

theorem properIn_nameOf {p : Node → Bool} (hw : tree.isWord source)
    (h : ∀ name, p (.identifier name)) : ProperIn p (nameOf source tree) := by
  refine properIn_identifier ?_ (h _)
  rw [textOf, String.toList_ofList]
  simpa [isWord] using hw

theorem properIn_param {role : Role} (ha : role.admits source tree) :
    ProperIn isBinding (param source tree) := by
  unfold param
  split
  · rename_i hk
    exact properIn_nameOf (Role.isWord_of_admits ha (by rw [hk]; decide)) fun _ => rfl
  · exact properIn_unsupported fun _ _ => rfl

theorem yields_params (ht : tree.Regular source) (hk : tree.kind = kind)
    (hrow : (.field "parameters", .only "formal_parameters") ∈ rows kind) :
    Yields (params source tree) fun nodes => ∀ node ∈ nodes, ProperIn isBinding node := by
  refine yields_bind yields_field fun parameters hp => yields_pure ?_
  have hkind := ht.kind_eq hk (.field "parameters") hrow hp
  have hregular := ht.below (mem_children_of_mem_trees hp)
  have hany : (Slot.anywhere, Role.any) ∈ rows "formal_parameters" := by decide
  rw [List.forall_mem_map]
  exact fun p hp => properIn_param (hregular.admits hkind hany hp)

/-! ### Control flow -/

section Rules

variable (hl : Sound source lower) (ht : tree.Regular source)
include hl ht

theorem yields_ifStatement (hk : tree.kind = "if_statement") :
    Yields (ifStatement source lower tree) (ProperIn isStatement) := by
  have halternate : Yields ((tree.child? "alternative").mapM (lowerFirst source lower "statement"))
      fun value => ∀ node ∈ value.toList, ProperIn isStatement node := by
    refine yields_optionMapM fun clause hc => ?_
    have hkind : clause.kind = "else_clause" :=
      ht.kind_eq hk (.field "alternative") (by decide) (mem_childrenAt_of_child? hc)
    exact yields_lowerFirst hl (ht.below (mem_children_of_child? hc)) hkind .statement _ (by decide)
  refine yields_bind halternate fun alternate ha => ?_
  refine yields_bind (yields_lowerAt hl ht hk .expression (by decide)) fun test htest => ?_
  refine yields_bind (yields_lowerAt hl ht hk .statement (by decide)) fun consequent hc => ?_
  have hall := all_of_properIn ha
  exact yields_pure (.intro rfl rfl rfl (by grind))

theorem yields_switchClause : Yields (switchClause source lower tree) fun value =>
    ∀ node ∈ value.toList, ProperIn isClause node := by
  unfold switchClause
  split
  · rename_i hk
    refine yields_bind (yields_lowerAt hl ht hk .expression (by decide)) fun test htest => ?_
    refine yields_bind (yields_childrenAt hl ht hk .statement (by decide)) fun body hbody => ?_
    refine yields_pure ?_
    rw [Option.toList_some, List.forall_mem_singleton]
    exact .intro rfl rfl rfl (by grind)
  · rename_i hk
    refine yields_bind (yields_childrenAt hl ht hk .statement (by decide)) fun body hbody => ?_
    refine yields_pure ?_
    rw [Option.toList_some, List.forall_mem_singleton]
    exact .intro rfl rfl rfl (by grind)
  · exact yields_pure (by simp)

theorem yields_switchStatement (hk : tree.kind = "switch_statement") :
    Yields (switchStatement source lower tree) (ProperIn isStatement) := by
  refine yields_bind yields_field fun body hb => ?_
  have hbody := ht.below (mem_children_of_mem_trees hb)
  have hclauses : Yields (body.named.mapM (switchClause source lower)) fun clauses =>
      ∀ clause ∈ clauses, ∀ node ∈ clause.toList, ProperIn isClause node :=
    yields_mapM fun clause hc => yields_switchClause hl (hbody.below (mem_children_of_mem_named hc))
  refine yields_bind hclauses fun clauses hc => ?_
  refine yields_bind (yields_lowerAt hl ht hk .expression (by decide)) fun discriminant hd => ?_
  have hcases : ∀ node ∈ clauses.filterMap id, ProperIn isClause node := by
    intro node hn
    obtain ⟨clause, hm, hnode⟩ := List.mem_filterMap.1 hn
    exact hc clause hm node (Option.mem_toList.2 hnode)
  exact yields_pure (.intro rfl rfl rfl (by grind))

theorem yields_catchClause (hk : tree.kind = "catch_clause") :
    Yields (catchClause source lower tree) (ProperIn isHandler) := by
  have hparam : ∀ node ∈ ((tree.child? "parameter").map (param source)).toList,
      ProperIn isBinding node := by
    intro node hn
    obtain ⟨child, hc, rfl⟩ := Option.map_eq_some_iff.1 (Option.mem_toList.1 hn)
    have hrow : (Slot.field "parameter", Role.target) ∈ rows "catch_clause" := by decide
    exact properIn_param (ht.admits hk hrow (mem_childrenAt_of_child? hc))
  refine yields_bind (yields_lowerBlock hl ht hk (by decide)) fun body hbody => yields_pure ?_
  have hall := all_of_properIn hparam
  exact .intro rfl rfl rfl (by grind)

theorem yields_tryStatement (hk : tree.kind = "try_statement") :
    Yields (tryStatement source lower tree) (ProperIn isStatement) := by
  have hhandler : Yields ((tree.child? "handler").mapM (catchClause source lower))
      fun value => ∀ node ∈ value.toList, ProperIn isHandler node :=
    yields_optionMapM fun clause hc => yields_catchClause hl (ht.below (mem_children_of_child? hc))
      (ht.kind_eq hk (.field "handler") (by decide) (mem_childrenAt_of_child? hc))
  have hfinalizer : Yields ((tree.child? "finalizer").mapM (lowerAt source lower "body"))
      fun value => ∀ node ∈ value.toList, ProperIn isBlock node := by
    refine yields_optionMapM fun clause hc => ?_
    have hkind : clause.kind = "finally_clause" :=
      ht.kind_eq hk (.field "finalizer") (by decide) (mem_childrenAt_of_child? hc)
    exact yields_lowerBlock hl (ht.below (mem_children_of_child? hc)) hkind (by decide)
  refine yields_bind hhandler fun handler hh => yields_bind hfinalizer fun finalizer hf => ?_
  refine yields_bind (yields_lowerBlock hl ht hk (by decide)) fun block hblock => yields_pure ?_
  have hcaught := all_of_properIn hh
  have hfinal := all_of_properIn hf
  exact .intro rfl rfl rfl (by grind)

/-! ### Declarations -/

theorem yields_declarator (hk : tree.kind = "variable_declarator") :
    Yields (declarator source lower tree) (ProperIn isDeclarator) := by
  refine yields_bind (yields_lowerAt hl ht hk .target (by decide)) fun target htarget => ?_
  refine yields_bind (yields_lowerAt? hl ht hk .expression (by decide)) fun value hvalue => ?_
  have hall : value.all isExpression := all_of_properIn hvalue
  exact yields_pure (.intro rfl rfl rfl (by grind))

theorem yields_declaration : Yields (declaration source lower tree) (ProperIn isDefinition) := by
  have hdeclarators : Yields ((tree.named.filter (·.kind == "variable_declarator")).mapM
      (declarator source lower)) fun nodes => ∀ node ∈ nodes, ProperIn isDeclarator node := by
    refine yields_mapM fun child hc => ?_
    obtain ⟨hnamed, hkind⟩ := List.mem_filter.1 hc
    exact yields_declarator hl (ht.below (mem_children_of_mem_named hnamed)) (beq_iff_eq.1 hkind)
  refine yields_bind hdeclarators fun declarators hd => yields_pure ?_
  exact .intro rfl rfl rfl (by grind)

theorem yields_functionDeclaration (hk : tree.kind = "function_declaration") :
    Yields (functionDeclaration source lower tree) (ProperIn isDefinition) := by
  unfold functionDeclaration
  split
  · exact yields_pure (properIn_unsupported fun _ _ => rfl)
  · refine yields_bind yields_field fun name hn => ?_
    have hname : ProperIn isBinding (nameOf source name) :=
      properIn_nameOf (ht.isWord hk (.field "name") (by decide) hn) fun _ => rfl
    refine yields_bind (yields_params ht hk (by decide)) fun params hparams => ?_
    refine yields_bind (yields_lowerBlock hl ht hk (by decide)) fun body hbody => yields_pure ?_
    exact .intro rfl rfl rfl (by grind)

end Rules

/-! ### Imports and exports -/

theorem yields_importSpecifier : Yields (importSpecifier source tree) (ProperIn isImportName) :=
  yields_bind yields_field fun _ _ => yields_pure (.leaf rfl rfl rfl)

theorem yields_importNames : Yields (importNames source tree) fun found =>
    ∀ names ∈ found, ∀ node ∈ names, ProperIn isImportName node := by
  unfold importNames
  split
  · refine yields_pure ?_
    simp only [Option.mem_some_iff, forall_eq', List.forall_mem_singleton]
    exact .leaf rfl rfl rfl
  · refine yields_bind (yields_firstNamed _) fun name _ => yields_pure ?_
    simp only [Option.mem_some_iff, forall_eq', List.forall_mem_singleton]
    exact .leaf rfl rfl rfl
  · refine yields_bind (yields_mapM fun _ _ => yields_importSpecifier) fun names hnames => ?_
    exact yields_pure (by simpa using hnames)
  · exact yields_pure (by simp)

theorem yields_importParts (parts : List Tree) : Yields (importParts source parts) fun found =>
    ∀ names ∈ found, ∀ node ∈ names, ProperIn isImportName node := by
  induction parts with
  | nil => exact yields_pure (by simp)
  | cons part rest ih =>
    refine yields_bind yields_importNames fun found hfound => ?_
    cases found with
    | none => exact yields_pure (by simp)
    | some names =>
      refine yields_bind ih fun others hothers => yields_pure ?_
      intro all hall
      obtain ⟨more, hmore, rfl⟩ := Option.map_eq_some_iff.1 hall
      exact List.forall_mem_append.2 ⟨hfound names rfl, hothers more hmore⟩

theorem yields_importStatement : Yields (importStatement source tree) (ProperIn isStatement) := by
  refine yields_bind yields_field fun origin _ => ?_
  refine yields_bind (yields_importParts _) fun found hfound => ?_
  cases found with
  | none => exact yields_pure (properIn_unsupported fun _ _ => rfl)
  | some names =>
    have hnames := hfound names rfl
    exact yields_pure (.intro rfl rfl rfl (by grind))

theorem yields_exportNames : Yields (exportNames source tree) (ProperIn isStatement) := by
  have hspecifier : ∀ t, Yields (exportSpecifier source t) (ProperIn isExportName) := fun _ =>
    yields_bind yields_field fun _ _ => yields_pure (.leaf rfl rfl rfl)
  unfold exportNames
  split
  · refine yields_bind (yields_mapM fun t _ => hspecifier t) fun names hnames => ?_
    exact yields_pure (.intro rfl rfl rfl (by grind))
  · exact yields_pure (properIn_unsupported fun _ _ => rfl)

section Rules

variable (hl : Sound source lower) (ht : tree.Regular source)
include hl ht

/-- An export has either a declaration or names. -/
theorem yields_exportStatement (hk : tree.kind = "export_statement") :
    Yields (exportStatement source lower tree) (ProperIn isStatement) := by
  unfold exportStatement
  split
  · exact yields_pure (properIn_unsupported fun _ _ => rfl)
  split
  · rename_i declared _ hd
    have hrow : (Slot.field "declaration", Role.definition) ∈ rows "export_statement" := by decide
    refine yields_bind (hl.yields_slot ht hk hrow (mem_childrenAt_of_child? hd)) fun node hn => ?_
    split
    · exact yields_pure (.intro rfl rfl rfl (by grind))
    · exact yields_pure (.intro rfl rfl rfl (by grind))
  · rename_i value _ hv
    have hrow : (Slot.field "value", Role.expression) ∈ rows "export_statement" := by decide
    refine yields_bind (hl.yields_slot ht hk hrow (mem_childrenAt_of_child? hv)) fun node hn => ?_
    exact yields_pure (.intro rfl rfl rfl (by grind))
  · exact yields_exportNames

/-! ### All statements -/

/-- A statement is of the class of its kind. -/
theorem yields_statementRule {rule : Lower}
    (hr : statementRule? source lower tree.kind = some rule) :
    Yields (rule tree) (ProperIn (classOf tree.kind)) := by
  unfold statementRule? at hr
  split at hr
  case h_16 => cases hr
  all_goals
    rename_i hk
    obtain rfl := Option.some.inj hr
    rw [hk]
  · refine yields_bind (yields_lowerFirst hl ht hk .expression _ (by decide)) fun node hn => ?_
    exact yields_pure (.intro rfl rfl rfl (by grind))
  · refine yields_bind (yields_lowerNamed hl ht hk .statement (by decide)) fun body hbody => ?_
    exact yields_pure (.intro rfl rfl rfl (by grind))
  · exact yields_pure (.leaf rfl rfl rfl)
  · exact yields_pure (.leaf rfl rfl rfl)
  · refine yields_bind (yields_lowerFirst? hl ht hk .expression (by decide)) fun argument ha => ?_
    have hall : argument.all isExpression := all_of_properIn ha
    exact yields_pure (.intro rfl rfl rfl (by grind))
  · refine yields_bind (yields_lowerFirst hl ht hk .expression _ (by decide)) fun node hn => ?_
    exact yields_pure (.intro rfl rfl rfl (by grind))
  · refine yields_pure ?_
    unfold breakStatement
    split
    · exact properIn_unsupported fun _ _ => rfl
    · exact .leaf rfl rfl rfl
  · exact yields_ifStatement hl ht hk
  · exact yields_switchStatement hl ht hk
  · exact yields_tryStatement hl ht hk
  · exact yields_declaration hl ht
  · exact yields_declaration hl ht
  · exact yields_functionDeclaration hl ht hk
  · exact yields_importStatement
  · exact yields_exportStatement hl ht hk

end Rules

end ScriptForms.Lowering
