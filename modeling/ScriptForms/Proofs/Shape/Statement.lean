import ScriptForms.Proofs.Node.Chain
import ScriptForms.Proofs.Shape.Basic

/-!
# The forms of statements

One lemma per rule for statement lists, conditions, switches, exceptions, imports and exports: the
rule yields items on a grammatical tree.
-/

namespace ScriptForms

open Node Form

namespace Form

theorem AreItems.append {forms others : List Form} (hf : AreItems forms) (ho : AreItems others) :
    AreItems (forms ++ others) :=
  List.forall_mem_append.2 ⟨hf, ho⟩

theorem areItems_singleton {form : Form} (h : form.IsItem) : AreItems [form] :=
  List.forall_mem_singleton.2 h

theorem areItems_flatten {lists : List (List Form)} (h : ∀ forms ∈ lists, AreItems forms) :
    AreItems lists.flatten := by
  intro form hm
  obtain ⟨forms, hforms, hm⟩ := List.mem_flatten.1 hm
  exact h forms hforms form hm

/-- The forms are names and values in turn. -/
def AreBindings (forms : List Form) : Prop :=
  ∃ pairs : List (Form × Form), forms = bindingForms pairs ∧ (∀ p ∈ pairs, p.1.isSymbol) ∧
    ∀ p ∈ pairs, p.2.IsItem

theorem areBindings_nil : AreBindings [] := ⟨[], rfl, by simp, by simp⟩

theorem areBindings_pair {name value : Form} (hn : name.isSymbol) (hv : value.IsItem) :
    AreBindings [name, value] :=
  ⟨[(name, value)], rfl, by simpa using hn, by simpa using hv⟩

theorem AreBindings.append {forms others : List Form} (hf : AreBindings forms)
    (ho : AreBindings others) : AreBindings (forms ++ others) := by
  obtain ⟨pairs, rfl, hn, hv⟩ := hf
  obtain ⟨pairs', rfl, hn', hv'⟩ := ho
  exact ⟨pairs ++ pairs', by simp [bindingForms], List.forall_mem_append.2 ⟨hn, hn'⟩,
    List.forall_mem_append.2 ⟨hv, hv'⟩⟩

theorem areBindings_flatten {lists : List (List Form)} (h : ∀ forms ∈ lists, AreBindings forms) :
    AreBindings lists.flatten := by
  induction lists with
  | nil => exact areBindings_nil
  | cons forms lists ih =>
    rw [List.forall_mem_cons] at h
    exact h.1.append (ih h.2)

end Form

namespace Rule

variable {visit : Visit}

/-! ### Statement lists -/

theorem yields_binding {id : Node} {init : Option Node}
    (hv : ShapesBelow visit (Node.variableDeclarator id init).size)
    (hg : (Node.variableDeclarator id init).Grammatical) :
    Yields (binding visit (.variableDeclarator id init)) AreBindings := by
  have hfits := (grammatical_iff.1 hg).1
  simp only [fits, Bool.and_eq_true, Option.all_eq_true] at hfits
  refine yields_bind (yields_bindingName id) fun name hname => ?_
  cases init with
  | none => exact yields_pure (areBindings_pair hname (isItem_symbol "nil"))
  | some init =>
    refine yields_bind (hv.childOne hg (by simp [children]) (hfits.2 init rfl) .value) ?_
    exact fun value hvalue => yields_pure (areBindings_pair hname hvalue)

/-- What a rule yields for every declarator, it yields for each part of a declaration. -/
theorem yields_declarators {α : Type} {rule : Node → Except Fault α} {p : α → Prop}
    {kind : BindingKind} {declarations : List Node}
    (hr : ∀ {id init}, ShapesBelow visit (Node.variableDeclarator id init).size →
      (Node.variableDeclarator id init).Grammatical →
      Yields (rule (.variableDeclarator id init)) p)
    (hv : ShapesBelow visit (Node.variableDeclaration kind declarations).size)
    (hg : (Node.variableDeclaration kind declarations).Grammatical) :
    Yields (declarations.mapM rule) fun results => ∀ result ∈ results, p result := by
  have hfits := (grammatical_iff.1 hg).1
  simp only [fits, List.all_eq_true] at hfits
  refine yields_mapM fun node hm => ?_
  have hn := hfits node hm
  have hc : node ∈ (Node.variableDeclaration kind declarations).children := hm
  have hbelow := hv.descend hc
  have hgn := hg.child hc
  obtain ⟨id, init, rfl⟩ := eq_variableDeclarator_of_isDeclarator hn
  exact hr hbelow hgn

theorem yields_bindings {node : Node} (hd : node.isDeclaration) (hv : ShapesBelow visit node.size)
    (hg : node.Grammatical) : Yields (bindings visit node) AreBindings := by
  obtain ⟨kind, declarations, rfl⟩ := eq_variableDeclaration_of_isDeclaration hd
  refine yields_bind (yields_declarators yields_binding hv hg) fun lists hlists => ?_
  exact yields_pure (areBindings_flatten hlists)

theorem areItems_closeLet {body : List Node} {split : List Form × List Form}
    (hb : AreBindings split.1) (hi : AreItems split.2) : AreItems (closeLet body split) := by
  unfold closeLet
  split
  · obtain ⟨pairs, hpairs, hn, hvalues⟩ := hb
    rw [hpairs]
    exact areItems_singleton (.binding hn hvalues hi)
  · exact hi

variable {n : Nat} {body : List Node}

theorem yields_splitStatements (hv : ShapesBelow visit n) (hsize : ∀ s ∈ body, s.size < n)
    (hg : ∀ s ∈ body, s.Grammatical) (hs : ∀ s ∈ body, s.isStatement) :
    Yields (splitStatements visit body) fun split => AreBindings split.1 ∧ AreItems split.2 := by
  induction body with
  | nil => exact yields_ok ⟨areBindings_nil, by simp [AreItems]⟩
  | cons statement rest ih =>
    rw [List.forall_mem_cons] at hsize hg hs
    have ih := ih hsize.2 hg.2 hs.2
    unfold splitStatements
    split
    · rename_i hd
      have hfirst := yields_bindings hd (hv.mono (Nat.le_of_lt hsize.1)) hg.1
      refine yields_bind hfirst fun first hfirst => yields_bind ih fun split hsplit => ?_
      exact yields_pure ⟨hfirst.append hsplit.1, hsplit.2⟩
    · have hfirst := hv statement hsize.1 hg.1 (standsAlone_of_isStatement hs.1) .value
      refine yields_bind hfirst fun first hfirst => yields_bind ih fun split hsplit => ?_
      refine yields_pure ⟨areBindings_nil, ?_⟩
      exact (areItems_filter hfirst).append (areItems_closeLet hsplit.1 hsplit.2)

theorem yields_statements (hv : ShapesBelow visit n) (hsize : ∀ s ∈ body, s.size < n)
    (hg : ∀ s ∈ body, s.Grammatical) (hs : ∀ s ∈ body, s.isStatement) :
    Yields (statements visit body) AreItems :=
  yields_bind (yields_splitStatements hv hsize hg hs) fun _ hsplit =>
    yields_pure (areItems_closeLet hsplit.1 hsplit.2)

/-- A program holds comments, markers and items. -/
theorem yields_program (hv : ShapesBelow visit n) (hsize : ∀ s ∈ body, s.size < n)
    (hg : ∀ s ∈ body, s.Grammatical) (hs : ∀ s ∈ body, s.isStatement) :
    Yields (program visit body) fun form => ∃ children, form = .program children ∧
      ∀ c ∈ children, c.isComment ∨ c.isMarker ∨ c.IsItem := by
  refine yields_bind (yields_mapM (p := fun forms : List Form =>
    ∀ c ∈ forms, c.isComment ∨ c.isMarker ∨ c.IsItem) fun s hm => ?_) fun lists hlists => ?_
  · have hforms := hv s (hsize s hm) (hg s hm) (standsAlone_of_isStatement (hs s hm)) .value
    refine yields_bind hforms fun forms hforms => ?_
    have hshape : ∀ c ∈ forms, c.isComment ∨ c.isMarker ∨ c.IsItem := by
      intro c hc
      rcases hforms.items with hitems | ⟨-, marker, hmarker, rfl⟩
      · exact .inr (.inr (hitems c hc))
      · rw [List.mem_singleton.1 hc]
        exact .inr (.inl hmarker)
    -- Only an expression statement brings comments with it.
    split
    · refine yields_pure (List.forall_mem_append.2 ⟨fun c hc => ?_, hshape⟩)
      obtain ⟨text, -, rfl⟩ := List.mem_map.1 hc
      exact .inl rfl
    · exact yields_pure hshape
  · refine yields_pure ⟨lists.flatten, rfl, fun c hc => ?_⟩
    obtain ⟨forms, hforms, hc⟩ := List.mem_flatten.1 hc
    exact hlists forms hforms c hc

/-! ### Conditions -/

theorem yields_branchTest {branch : Branch} (ht : ∀ test ∈ branch.test,
    Yields (visit.one test .value) IsItem) : Yields (branchTest visit branch) IsItem := by
  unfold branchTest
  split
  · rename_i test htest
    exact ht test htest
  · exact yields_ok (.atom rfl)

theorem yields_branchPair {branch : Branch}
    (ht : ∀ test ∈ branch.test, Yields (visit.one test .value) IsItem)
    (hb : Shapes visit branch.body) : Yields (branchPair visit branch) AreItems := by
  refine yields_bind (yields_branchTest ht) fun test htest => ?_
  refine yields_bind hb.block fun body hbody => yields_pure ?_
  simpa [AreItems] using ⟨htest, isItem_sequence hbody⟩

theorem yields_ifStatement {test consequent : Node} {alternate : Option Node}
    (hv : ShapesBelow visit (Node.ifStatement test consequent alternate).size)
    (hg : (Node.ifStatement test consequent alternate).Grammatical) :
    Yields (ifStatement visit (.ifStatement test consequent alternate)) IsItem := by
  have hbranch := branches_fit hg
  have hb : ∀ branch ∈ (Node.ifStatement test consequent alternate).branches,
      Shapes visit branch.body := fun branch hm =>
    hv.descendant hg (hbranch branch hm).1.1 (standsAlone_of_isStatement (hbranch branch hm).1.2)
  have ht : ∀ branch ∈ (Node.ifStatement test consequent alternate).branches,
      ∀ t ∈ branch.test, Yields (visit.one t .value) IsItem := by
    intro branch hm t hmt
    obtain ⟨hbelow, he⟩ := (hbranch branch hm).2 t hmt
    exact hv.one (size_lt_of_mem_descendants hbelow) (hg.descendants hbelow) he .value
  unfold ifStatement
  split
  · rename_i only heq
    rw [heq, List.forall_mem_singleton] at hb ht
    refine yields_bind (yields_branchTest ht) fun test htest => ?_
    refine yields_bind hb.block fun body hbody => yields_pure (isItem_call "when" ?_)
    exact List.forall_mem_cons.2 ⟨htest, hbody⟩
  · rename_i first other heq
    rw [heq, List.forall_mem_cons, List.forall_mem_singleton] at hb ht
    refine yields_bind (yields_branchPair ht.1 hb.1) fun pair hpair => ?_
    refine yields_bind hb.2.block fun other hother => yields_pure (isItem_call "if" ?_)
    exact hpair.append (areItems_singleton (isItem_sequence hother))
  · have hpairs := yields_mapM fun branch hm => yields_branchPair (ht branch hm) (hb branch hm)
    refine yields_bind hpairs fun pairs hpairs => yields_pure (isItem_call "cond" ?_)
    refine (areItems_flatten hpairs).append ?_
    split
    · simpa [AreItems] using ⟨.atom rfl, isItem_symbol "nil"⟩
    · simp [AreItems]

/-! ### Switches -/

theorem isItem_caseTest {tests : List Form} (hne : tests ≠ []) (h : AreItems tests) :
    (caseTest tests).IsItem := by
  unfold caseTest
  split
  · exact h _ (by simp)
  · exact .list hne h

theorem isItem_caseBody {forms : List Form} (h : AreItems forms) : (caseBody forms).IsItem := by
  unfold caseBody
  split
  · exact isItem_symbol "nil"
  · exact isItem_sequence h

theorem yields_clauseTest {test : Node} {consequent : List Node}
    (hv : ShapesBelow visit (Node.switchCase (some test) consequent).size)
    (hg : (Node.switchCase (some test) consequent).Grammatical) :
    Yields (visit.one test) IsItem := by
  have hfits := (grammatical_iff.1 hg).1
  simp only [fits, Bool.and_eq_true, Option.all_some] at hfits
  exact hv.childOne hg (by simp [children]) hfits.1 .value

theorem yields_clauseBody {test : Option Node} {consequent : List Node}
    (hv : ShapesBelow visit (Node.switchCase test consequent).size)
    (hg : (Node.switchCase test consequent).Grammatical) :
    Yields (statements visit (clauseBody consequent)) AreItems := by
  have hbody := clauseBody_fits hg
  exact yields_statements hv (fun s hs => size_lt_of_mem_descendants (hbody s hs).1)
    (fun s hs => hg.descendants (hbody s hs).1) (fun s hs => (hbody s hs).2)

/-- The tests that wait for a body, the bodies and the default body are items. -/
theorem yields_clauses (hv : ShapesBelow visit n) {cases : List Node}
    (hsize : ∀ c ∈ cases, c.size ≤ n) (hg : ∀ c ∈ cases, c.Grammatical) (clause : Nat)
    {tests : List Form} (ht : AreItems tests) :
    Yields (clauses visit clause tests cases) fun result =>
      AreItems result.1 ∧ ∀ form ∈ result.2, form.IsItem := by
  induction cases generalizing clause tests with
  | nil =>
    cases tests with
    | nil => exact yields_ok ⟨by simp [AreItems], by simp⟩
    | cons test tests =>
      refine yields_ok ⟨List.forall_mem_cons.2 ⟨isItem_caseTest (by simp) ht, ?_⟩, by simp⟩
      exact areItems_singleton (isItem_symbol "nil")
  | cons node rest ih =>
    rw [List.forall_mem_cons] at hsize hg
    have ih := ih hsize.2 hg.2
    have hnode : ShapesBelow visit node.size := hv.mono hsize.1
    rintro ⟨items, default⟩ hok
    rcases clauses_cons_cases hok with ⟨test, form, rfl, hform, hrest⟩ |
      ⟨test, first, others, form, forms, later, rfl, -, hforms, hform, hrest, rfl⟩ |
      ⟨first, others, forms, later, rfl, -, hforms, hrest, rfl⟩
    · have hform := yields_clauseTest hnode hg.1 form hform
      exact ih (clause + 1) (ht.append (areItems_singleton hform)) _ hrest
    · have hform := yields_clauseTest hnode hg.1 form hform
      have hforms := yields_clauseBody hnode hg.1 forms hforms
      obtain ⟨hlater, hdefault⟩ := @ih (clause + 1) [] (by simp [AreItems]) _ hrest
      have hgroup := isItem_caseTest (by simp) (ht.append (areItems_singleton hform))
      exact ⟨List.forall_mem_cons.2
        ⟨hgroup, List.forall_mem_cons.2 ⟨isItem_caseBody hforms, hlater⟩⟩, hdefault⟩
    · have hforms := yields_clauseBody hnode hg.1 forms hforms
      obtain ⟨hitems, hdefault⟩ := @ih (clause + 1) [] (by simp [AreItems]) _ hrest
      refine ⟨hitems, ?_⟩
      -- A later default clause wins over this one.
      cases later with
      | none => simpa using isItem_caseBody hforms
      | some form => simpa using hdefault

theorem yields_switchStatement {discriminant : Node} {cases : List Node}
    (hv : ShapesBelow visit (Node.switchStatement discriminant cases).size)
    (hg : (Node.switchStatement discriminant cases).Grammatical) :
    Yields (switchStatement visit discriminant cases) IsItem := by
  have hfits := (grammatical_iff.1 hg).1
  simp only [fits, Bool.and_eq_true, List.all_eq_true] at hfits
  have hc : ∀ c ∈ cases, c ∈ (Node.switchStatement discriminant cases).children := fun c hc => by
    simp [children, hc]
  have hvalue := hv.childOne hg (by simp [children]) hfits.1 .value
  have hclauses := yields_clauses hv (fun c h => Nat.le_of_lt (size_of_child (hc c h)))
    (fun c h => hg.child (hc c h)) 1 (show AreItems [] by simp [AreItems])
  refine yields_bind hvalue fun value hvalue => yields_bind hclauses fun result hresult => ?_
  obtain ⟨pairs, default⟩ := result
  refine yields_pure (isItem_call "case" ?_)
  refine AreItems.append (List.forall_mem_cons.2 ⟨hvalue, hresult.1⟩) (areItems_singleton ?_)
  cases default with
  | none => exact isItem_symbol "nil"
  | some form => exact hresult.2 form rfl

/-! ### Exceptions -/

theorem yields_catchClause {node : Node} (hn : node.isHandler) (hv : ShapesBelow visit node.size)
    (hg : node.Grammatical) : Yields (catchClause visit node) IsItem := by
  obtain ⟨param, body, rfl⟩ := eq_catchClause_of_isHandler hn
  have hfits := (grammatical_iff.1 hg).1
  simp only [fits, Bool.and_eq_true] at hfits
  have hbody : Shapes visit body :=
    hv.child hg (by simp [children]) (standsAlone_of_isBlock hfits.2)
  have hrest : ∀ name : Form, name.isSymbol → Yields (do
      let forms ← visit.block body
      return Form.call "catch" (.symbol (hostName "Object") :: name :: forms)) IsItem := by
    intro name hname
    refine yields_bind hbody.block fun forms hforms => yields_pure (isItem_call "catch" ?_)
    exact List.forall_mem_cons.2
      ⟨isItem_symbol _, List.forall_mem_cons.2 ⟨isItem_of_isSymbol hname, hforms⟩⟩
  cases param with
  | none => exact hrest _ rfl
  | some param => exact yields_bind (yields_bindingName param) hrest

theorem yields_tryStatement {block : Node} {handler finalizer : Option Node}
    (hv : ShapesBelow visit (Node.tryStatement block handler finalizer).size)
    (hg : (Node.tryStatement block handler finalizer).Grammatical) :
    Yields (tryStatement visit block handler finalizer) IsItem := by
  have hfits := (grammatical_iff.1 hg).1
  simp only [fits, Bool.and_eq_true, Option.all_eq_true] at hfits
  have hblock : Shapes visit block :=
    hv.child hg (by simp [children]) (standsAlone_of_isBlock hfits.1.1)
  have hhandler : ∀ node ∈ handler.toList, Yields (catchClause visit node) IsItem := by
    intro node hm
    have hc : node ∈ (Node.tryStatement block handler finalizer).children := by
      simp [children, List.mem_append, hm]
    exact yields_catchClause (hfits.1.2 node (by simpa using hm)) (hv.descend hc) (hg.child hc)
  have hfinalizer : ∀ node ∈ finalizer.toList,
      Yields (return Form.call "finally" (← visit.block node)) IsItem := by
    intro node hm
    have hc : node ∈ (Node.tryStatement block handler finalizer).children := by
      simp [children, List.mem_append, hm]
    have hnode : Shapes visit node :=
      hv.child hg hc (standsAlone_of_isBlock (hfits.2 node (by simpa using hm)))
    exact yields_bind hnode.block fun forms hforms => yields_pure (isItem_call "finally" hforms)
  refine yields_bind hblock.block fun body hbody => ?_
  refine yields_bind (yields_mapM hhandler) fun handlers hhandlers => ?_
  refine yields_bind (yields_mapM hfinalizer) fun finalizers hfinalizers => ?_
  exact yields_pure (isItem_call "try" ((AreItems.append hbody hhandlers).append hfinalizers))

/-! ### Imports and exports -/

theorem isItem_property (name : String) {form : Form} (h : form.IsItem) :
    (property name form).IsItem :=
  isItem_call _ (by simpa using h)

theorem isItem_requireModule (source : String) : (requireModule source).IsItem :=
  isItem_call _ (by simpa using .atom rfl)

theorem yields_importSpecifier (source : String) (node : Node) :
    Yields (importSpecifier source node) IsItem := by
  have hdef : ∀ (name : String) {form : Form}, form.IsItem →
      (Form.call "def" [.symbol name, form]).IsItem := fun name form h =>
    isItem_call "def" (by simpa using ⟨isItem_symbol name, h⟩)
  cases node with
  | importNamespaceSpecifier localName => exact yields_ok (hdef _ (isItem_requireModule source))
  | importDefaultSpecifier localName | importSpecifier imported localName =>
    exact yields_ok (hdef _ (isItem_property _ (isItem_requireModule source)))
  | _ => exact yields_error _

theorem yields_importDeclaration (specifiers : List Node) (source : String) :
    Yields (importDeclaration specifiers source) AreItems := by
  unfold importDeclaration
  split
  · exact yields_ok (areItems_singleton (isItem_requireModule source))
  · exact yields_mapM fun node _ => yields_importSpecifier source node

theorem isItem_exportForm (name : String) {value : Form} (h : value.IsItem) :
    (exportForm name value).IsItem :=
  isItem_call "set!" (by simpa using ⟨isItem_property name (isItem_symbol _), h⟩)

theorem yields_exportDefault {declaration : Node}
    (h : ∀ context, Yields (visit.one declaration context) IsItem) :
    Yields (exportDefault visit declaration) IsItem := by
  unfold exportDefault
  split
  · refine yields_bind (yields_bindingName _) fun name hname => ?_
    refine yields_bind (h .value) fun definition hdefinition => yields_pure (isItem_call "do" ?_)
    simpa using ⟨hdefinition, isItem_exportForm _ (isItem_of_isSymbol hname)⟩
  · exact yields_bind (h .value) fun value hvalue => yields_pure (isItem_exportForm _ hvalue)

theorem yields_exportSpecifier (node : Node) : Yields (exportSpecifier node) IsItem := by
  cases node with
  | exportSpecifier localName exported =>
    exact yields_ok (isItem_exportForm exported (isItem_symbol localName))
  | _ => exact yields_error _

theorem yields_exportNamed {declaration : Option Node} {specifiers : List Node}
    (h : ∀ d ∈ declaration, Yields (visit d .value) AreItems) :
    Yields (exportNamed visit declaration specifiers) AreItems := by
  cases declaration with
  | none => exact yields_mapM fun node _ => yields_exportSpecifier node
  | some declaration =>
    refine yields_bind (h declaration rfl) fun definitions hdefinitions => ?_
    refine yields_pure (areItems_singleton (isItem_call "do" (hdefinitions.append ?_)))
    intro form hm
    obtain ⟨name, -, rfl⟩ := List.mem_map.1 hm
    exact isItem_exportForm name (isItem_symbol name)

end Rule

end ScriptForms
