import ScriptForms.Proofs.Gauge.Basic

/-!
# The measures of statements

One lemma per rule for definitions, statement lists, conditions, switches, exceptions, imports and
exports: on a covered tree the forms of the rule compare to the tree, if those of the conversion
that it is given compare to the trees below.
-/

namespace ScriptForms

open Node Form

namespace Rule

open Gauge

variable {M : Type} [AddMonoid M] {g : Gauge M} {visit : Visit}

/-! ### Functions and definitions -/

theorem weighs_function (hv : Weighs g visit) {head : String} (hh : IsPlainWord head)
    {name : Option Form} {total : M} (hn : g.Rel (g.weights name.toList) total)
    {params : List Node} (hp : ∀ p ∈ params, g.Covers p) {body : Node} (hb : g.Covers body) :
    Yields (function visit head name params body)
      (g.WeighsOne (total + (g.tallies params + g.tally body))) := by
  have hparams := rel_trees fun p hm => weighs_bindingName (hp p hm)
  refine yields_bind hparams fun params hparams => ?_
  refine yields_bind (hv.block hb) fun forms hforms => yields_pure (weighsOne_call hh ?_)
  simpa using g.add hn (g.add hparams hforms.rel)

/-- A function without a name. -/
theorem weighs_lambda (hv : Weighs g visit) {params : List Node} (hp : ∀ p ∈ params, g.Covers p)
    {body : Node} (hb : g.Covers body) :
    Yields (function visit "fn" none params body)
      (g.WeighsOne (g.tallies params + g.tally body)) := by
  have hnone : g.Rel (g.weights (none : Option Form).toList) 0 := g.zero
  simpa using weighs_function hv (show IsPlainWord "fn" by decide) hnone hp hb

theorem tally_variableDeclarator (id : Node) (init : Option Node) :
    g.tally (.variableDeclarator id init) = g.tally id + g.tallies init.toList := by
  rw [g.tally_of_own rfl]
  simp [below, kept, children]

theorem tally_arrowFunctionExpression (params : List Node) (body : Node) :
    g.tally (.arrowFunctionExpression params body) = g.tallies params + g.tally body := by
  rw [g.tally_of_own rfl]
  simp [below, kept, children]

theorem tally_functionExpression (id : Option Node) (params : List Node) (body : Node) :
    g.tally (.functionExpression id params body) =
      g.tallies id.toList + (g.tallies params + g.tally body) := by
  rw [g.tally_of_own rfl]
  simp [below, kept, children]

theorem weighs_declarator (hv : Weighs g visit) {node : Node} (h : g.Covers node) :
    Yields (declarator visit node) (g.WeighsOne (g.tally node)) := by
  cases node with
  | variableDeclarator id init =>
    rw [tally_variableDeclarator]
    have hinit : ∀ m ∈ init, g.Covers m := fun m hm => h.child (by simp_all [children])
    refine yields_bind (weighs_bindingName (h.child (by simp [children]))) fun name hname => ?_
    have hnamed : g.Rel (g.weights (some name).toList) (g.tally id) := by simpa using hname
    split
    · rename_i params body
      have hfunction := hinit _ rfl
      simpa [tally_arrowFunctionExpression] using
        weighs_function hv (show IsPlainWord "defn" by decide) hnamed
          (fun p hp => hfunction.child (by simp [children, hp]))
          (hfunction.child (by simp [children]))
    · rename_i params body
      have hfunction := hinit _ rfl
      simpa [tally_functionExpression] using
        weighs_function hv (show IsPlainWord "defn" by decide) hnamed
          (fun p hp => hfunction.child (by simp [children, hp]))
          (hfunction.child (by simp [children]))
    · rename_i init _ _
      refine yields_bind (hv.one (hinit init rfl) rfl) fun value hvalue => ?_
      exact yields_pure (weighsOne_call (by decide) (by simpa using g.add hname hvalue.rel))
    · exact yields_pure (weighsOne_call (by decide) (by simpa using hname))
  | _ => exact yields_error _

/-! ### Statement lists -/

theorem rel_binding (hv : Weighs g visit) {node : Node} (h : g.Covers node) :
    Yields (binding visit node) fun forms => g.Rel (g.weights forms) (g.tally node) := by
  cases node with
  | variableDeclarator id init =>
    rw [tally_variableDeclarator]
    refine yields_bind (weighs_bindingName (h.child (by simp [children]))) fun name hname => ?_
    cases init with
    | none => exact yields_pure (by simpa using hname)
    | some init =>
      refine yields_bind (hv.one (h.child (by simp [children])) rfl) fun value hvalue => ?_
      exact yields_pure (by simpa using g.add hname hvalue.rel)
  | _ => exact yields_error _

theorem rel_bindings (hv : Weighs g visit) {node : Node} (h : g.Covers node) :
    Yields (bindings visit node) fun forms => g.Rel (g.weights forms) (g.tally node) := by
  cases node with
  | variableDeclaration kind declarations =>
    rw [g.tally_of_own rfl]
    refine yields_bind (rel_flatten fun d hd => rel_binding hv (h.child hd)) ?_
    exact fun lists hlists => yields_pure hlists
  | _ => exact yields_error _

/-- The bindings and the forms of a statement list; without leading declarations there are no
bindings. -/
structure SplitWeighs (g : Gauge M) (body : List Node) (split : List Form × List Form) : Prop where
  rel : g.Rel (g.weights split.1 + g.weights split.2) (g.tallies body)
  heads : ∀ form ∈ split.2, g.IsHead form
  undeclared : ¬startsDeclared body → split.1 = []

theorem SplitWeighs.closeLet {body : List Node} {split : List Form × List Form}
    (h : SplitWeighs g body split) : g.Weighs (g.tallies body) (closeLet body split) := by
  unfold Rule.closeLet
  split
  · exact (weighsOne_call (by decide) (by simpa using h.rel)).singleton
  · -- Bindings without a `let` around them would be lost, but there are none.
    rename_i hnot
    exact ⟨by simpa [h.undeclared hnot] using h.rel, h.heads⟩

theorem yields_splitWeighs (hv : Weighs g visit) {body : List Node} (h : ∀ s ∈ body, g.Covers s) :
    Yields (splitStatements visit body) (SplitWeighs g body) := by
  induction body with
  | nil => exact yields_ok ⟨by simpa using g.zero, by simp, fun _ => rfl⟩
  | cons statement rest ih =>
    rw [List.forall_mem_cons] at h
    have ih := ih h.2
    unfold splitStatements
    split
    · rename_i hdeclared
      refine yields_bind (rel_bindings hv h.1) fun first hfirst => ?_
      refine yields_bind ih fun split hsplit => yields_pure ⟨?_, hsplit.heads, ?_⟩
      · simpa [add_assoc] using g.add hfirst hsplit.rel
      · intro hnot
        simp [startsDeclared, hdeclared] at hnot
    · refine yields_bind (hv.forms h.1 rfl) fun first hfirst => ?_
      refine yields_bind ih fun split hsplit => yields_pure ⟨?_, ?_, fun _ => rfl⟩
      · simpa [g.weights_filter] using g.add hfirst.rel hsplit.closeLet.rel
      · rw [List.forall_mem_append]
        exact ⟨fun form hm => hfirst.heads form (List.mem_of_mem_filter hm), hsplit.closeLet.heads⟩

theorem weighs_statements (hv : Weighs g visit) {body : List Node} (h : ∀ s ∈ body, g.Covers s) :
    Yields (statements visit body) (g.Weighs (g.tallies body)) :=
  yields_bind (yields_splitWeighs hv h) fun _ hsplit => yields_pure hsplit.closeLet

theorem weighs_program (hv : Weighs g visit) {body : List Node} (h : ∀ s ∈ body, g.Covers s) :
    Yields (program visit body) (g.WeighsOne (g.tallies body)) := by
  refine yields_bind (@rel_flatten M _ g _ _ g.tally _ fun s hs => ?_) fun lists hlists =>
    yields_pure ⟨?_, isHead_of_symbol?_eq_none rfl⟩
  · refine yields_bind (hv.forms (h s hs) rfl) fun forms hforms => ?_
    split
    · rename_i expression comments
      have hcomments : g.weights (comments.map .comment) = 0 := by
        simp [weights, Function.comp_def]
      refine yields_pure ?_
      rw [g.weights_append, hcomments, zero_add]
      exact hforms.rel
    · exact yields_pure hforms.rel
  · rw [g.weight_program]
    exact hlists

/-! ### Conditions -/

theorem rel_branchTest (hv : Weighs g visit) {branch : Branch}
    (h : ∀ test ∈ branch.test, g.Covers test) :
    Yields (branchTest visit branch) fun form =>
      g.Rel (g.weight form) (g.tallies branch.test.toList) := by
  unfold branchTest
  split
  · rename_i test htest
    simpa [htest] using (hv.one (h test htest) rfl).imp fun _ hform => hform.rel
  · rename_i htest
    exact yields_ok (by simpa [htest] using g.zero)

theorem rel_branchPair (hv : Weighs g visit) {branch : Branch}
    (ht : ∀ test ∈ branch.test, g.Covers test) (hb : g.Covers branch.body) :
    Yields (branchPair visit branch) fun forms =>
      g.Rel (g.weights forms) (g.branchTally branch) := by
  refine yields_bind (rel_branchTest hv ht) fun test htest => ?_
  refine yields_bind (hv.block hb) fun body hbody => yields_pure ?_
  simpa [branchTally, g.weight_sequence] using g.add htest hbody.rel

theorem weighs_ifStatement (hv : Weighs g visit) {test consequent : Node}
    {alternate : Option Node} (h : g.Covers (.ifStatement test consequent alternate)) :
    Yields (ifStatement visit (.ifStatement test consequent alternate))
      (g.WeighsOne (g.tally (.ifStatement test consequent alternate))) := by
  have hfit := branches_fit h.grammatical
  have hb : ∀ branch ∈ (Node.ifStatement test consequent alternate).branches,
      g.Covers branch.body := fun branch hm => h.descendant (hfit branch hm).1.1
  have ht : ∀ branch ∈ (Node.ifStatement test consequent alternate).branches,
      ∀ t ∈ branch.test, g.Covers t := fun branch hm t hmt =>
    h.descendant ((hfit branch hm).2 t hmt).1
  rw [← g.tally_branches]
  unfold ifStatement
  split
  · rename_i only heq
    rw [heq, List.forall_mem_singleton] at hb ht
    refine yields_bind (rel_branchTest hv ht) fun test htest => ?_
    refine yields_bind (hv.block hb) fun body hbody => ?_
    refine yields_pure (weighsOne_call (by decide) ?_)
    simpa [heq, branchTally] using g.add htest hbody.rel
  · rename_i first other heq
    rw [heq, List.forall_mem_cons, List.forall_mem_singleton] at hb ht
    refine yields_bind (rel_branchPair hv ht.1 hb.1) fun pair hpair => ?_
    refine yields_bind (hv.block hb.2) fun other hother => ?_
    refine yields_pure (weighsOne_call (by decide) ?_)
    simpa [heq, branchTally, g.weight_sequence] using g.add hpair hother.rel
  · have hpairs := rel_flatten fun branch hm =>
      rel_branchPair hv (ht branch hm) (hb branch hm)
    refine yields_bind hpairs fun pairs hpairs => yields_pure (weighsOne_call (by decide) ?_)
    rw [g.weights_append]
    split <;> simpa using hpairs

/-! ### Switches -/

theorem rel_caseTest {tests : List Form} {total : M} (h : g.Weighs total tests) :
    g.Rel (g.weight (caseTest tests)) total := by
  unfold caseTest
  split
  · simpa using h.rel
  · exact h.list.rel

theorem weight_caseBody (forms : List Form) : g.weight (caseBody forms) = g.weights forms := by
  unfold caseBody
  split
  · rename_i hempty
    rw [List.isEmpty_iff] at hempty
    simp [hempty]
  · exact g.weight_sequence forms

/-- A clause measures what it holds with its last block opened up and its final `break` dropped. -/
theorem tallies_clauseBody (body : List Node) : g.tallies (clauseBody body) = g.tallies body := by
  refine congr_clauseBody (fun front inner => ?_) (fun front => ?_) body
  · have hblock : g.tally (.blockStatement inner) = g.tallies inner := g.tally_of_own rfl
    simp [g.tallies_append, hblock]
  · have hbreak : g.tally .breakStatement = 0 := g.tally_of_own rfl
    simp [g.tallies_append, hbreak]

/-- The tests and bodies of clauses and the body of the default clause: the tests that wait for a
body are measured unless a default clause comes next. -/
structure ClausesWeigh (g : Gauge M) (waiting : M) (cases : List Node)
    (result : List Form × Option Form) : Prop where
  rel : g.Rel (g.weights result.1 + g.weights result.2.toList)
    ((if leadsToDefault cases then 0 else waiting) + g.tallies (keptClauses cases))
  default : cases.countP isDefaultClause = 0 → result.2 = none

theorem weighs_clauseTest (hv : Weighs g visit) {test : Node} {consequent : List Node}
    (h : g.Covers (.switchCase (some test) consequent)) :
    Yields (visit.one test) (g.WeighsOne (g.tally test)) :=
  hv.one (h.child (by simp [children])) rfl

theorem weighs_clauseBody (hv : Weighs g visit) {test : Option Node} {consequent : List Node}
    (h : g.Covers (.switchCase test consequent)) :
    Yields (statements visit (clauseBody consequent)) (g.Weighs (g.tallies consequent)) := by
  rw [← tallies_clauseBody]
  exact weighs_statements hv fun s hs => h.descendant (clauseBody_fits h.grammatical s hs).1

/-- The default clause comes last in the form, wherever it stands among the clauses, and all default
clauses but one are left out. -/
theorem weighs_clauses (hv : Weighs g visit) (hcomm : ∀ a b : M, a + b = b + a)
    {cases : List Node} (h : ∀ c ∈ cases, g.Covers c)
    (hrival : 1 < cases.countP isDefaultClause → ∀ a b c : M, g.Rel a b → g.Rel a (b + c))
    (clause : Nat) {tests : List Form} {waiting : M} (ht : g.Weighs waiting tests) :
    Yields (clauses visit clause tests cases) (ClausesWeigh g waiting cases) := by
  induction cases generalizing clause tests waiting with
  | nil =>
    cases tests with
    | nil => exact yields_ok ⟨by simpa [leadsToDefault, keptClauses] using ht.rel, by simp⟩
    | cons test tests =>
      refine yields_ok ⟨?_, by simp⟩
      simpa [leadsToDefault, keptClauses] using rel_caseTest ht
  | cons node rest ih =>
    rw [List.forall_mem_cons] at h
    have ih := fun clause tests waiting => @ih h.2 (fun hone => hrival (by
      rw [List.countP_cons]
      omega)) clause tests waiting
    rintro ⟨items, default⟩ hok
    rcases clauses_cons_cases hok with ⟨test, form, rfl, hform, hrest⟩ |
      ⟨test, first, others, form, forms, later, rfl, -, hforms, hform, hrest, rfl⟩ |
      ⟨first, others, forms, later, rfl, -, hforms, hrest, rfl⟩
    · have hform := weighs_clauseTest hv h.1 form hform
      obtain ⟨hrel, hdefault⟩ := ih (clause + 1) _ _ (ht.append hform.singleton) _ hrest
      refine ⟨?_, by simpa [isDefaultClause] using hdefault⟩
      simp only [leadsToDefault, keptClauses, g.tallies_append]
      split at hrel <;> simp_all [add_assoc]
    · have hform := weighs_clauseTest hv h.1 form hform
      have hforms := weighs_clauseBody hv h.1 forms hforms
      have hlater := ih (clause + 1) _ _ (weighs_nil g) _ hrest
      refine ⟨?_, by simpa [isDefaultClause] using hlater.default⟩
      have hclause := g.add (rel_caseTest (ht.append hform.singleton)) hforms.rel
      simpa [leadsToDefault, keptClauses, weight_caseBody, add_assoc] using
        g.add hclause hlater.rel
    · have hforms := (weighs_clauseBody hv h.1 forms hforms).rel
      obtain ⟨hrel, hdefault⟩ := ih (clause + 1) _ _ (weighs_nil g) _ hrest
      refine ⟨?_, by simp [isDefaultClause]⟩
      simp only [leadsToDefault, keptClauses, g.tallies_append, if_true, ite_self, zero_add,
        Option.toList_none, tallies_nil] at hrel ⊢
      cases later with
      | none =>
        rw [hcomm (g.weights items)]
        simpa [weight_caseBody] using g.add hforms hrel
      | some form =>
        -- A later default clause wins over this one.
        have hlater : rest.countP isDefaultClause ≠ 0 := fun hnone => by cases hdefault hnone
        rw [hcomm (g.tallies (first :: others))]
        refine hrival ?_ _ _ _ hrel
        rw [List.countP_cons_of_pos rfl]
        omega

theorem weighs_switchStatement (hv : Weighs g visit) {discriminant : Node} {cases : List Node}
    (h : g.Covers (.switchStatement discriminant cases)) :
    Yields (switchStatement visit discriminant cases)
      (g.WeighsOne (g.tally (.switchStatement discriminant cases))) := by
  have hclauses := weighs_clauses hv (g.reorder h.admits)
    (fun c hc => h.child (by simp [children, hc])) (fun hone _ _ _ => g.rival h.admits hone) 1
    (weighs_nil g)
  refine yields_bind (hv.one (h.child (by simp [children])) rfl) fun value hvalue => ?_
  refine yields_bind hclauses fun result hresult => ?_
  obtain ⟨pairs, default⟩ := result
  refine yields_pure (weighsOne_call (by decide) ?_)
  rw [g.tally_of_own rfl]
  have hrel := g.add hvalue.rel hresult.rel
  cases default with
  | none => simpa [below, kept, add_assoc] using hrel
  | some form => simpa [below, kept, add_assoc] using hrel

/-! ### Exceptions -/

theorem weighs_catchClause (hv : Weighs g visit) {node : Node} (h : g.Covers node) :
    Yields (catchClause visit node) (g.WeighsOne (g.tally node)) := by
  cases node with
  | catchClause param body =>
    have hbody : g.Covers body := h.child (by simp [children])
    have htotal : g.tally (.catchClause param body) = g.tallies param.toList + g.tally body := by
      rw [g.tally_of_own rfl]
      simp [below, kept, children]
    have hrest : ∀ (name : Form) (total : M), g.Rel (g.weight name) total →
        Yields (do
          let forms ← visit.block body
          return Form.call "catch" (.symbol (hostName "Object") :: name :: forms))
          (g.WeighsOne (total + g.tally body)) := by
      intro name total hname
      refine yields_bind (hv.block hbody) fun forms hforms => ?_
      refine yields_pure (weighsOne_call (by decide) ?_)
      have hobject := g.plain (isPlainWord_hostName (show "Object" ∈ reservedHosts by decide))
      simpa [hobject] using g.add hname hforms.rel
    rw [htotal]
    cases param with
    | none =>
      refine hrest _ 0 ?_
      rw [g.plain (by decide)]
      exact g.zero
    | some param =>
      refine yields_bind (weighs_bindingName (h.child (by simp [children]))) fun name hname => ?_
      simpa using hrest name _ hname
  | _ => exact yields_error _

theorem weighs_tryStatement (hv : Weighs g visit) {block : Node} {handler finalizer : Option Node}
    (h : g.Covers (.tryStatement block handler finalizer)) :
    Yields (tryStatement visit block handler finalizer)
      (g.WeighsOne (g.tally (.tryStatement block handler finalizer))) := by
  have hhandlers := weighs_trees fun node (hm : node ∈ handler.toList) =>
    weighs_catchClause hv (h.child (by simp [children, List.mem_append, hm]))
  have hfinalizers : Yields
      (finalizer.toList.mapM fun node => return Form.call "finally" (← visit.block node))
      (g.Weighs (g.tallies finalizer.toList)) := by
    refine weighs_trees fun node hm => ?_
    have hnode : g.Covers node := h.child (by simp [children, List.mem_append, hm])
    refine yields_bind (hv.block hnode) fun forms hforms => ?_
    exact yields_pure (weighsOne_call (by decide) hforms.rel)
  refine yields_bind (hv.block (h.child (by simp [children]))) fun body hbody => ?_
  refine yields_bind hhandlers fun handlers hhandlers => ?_
  refine yields_bind hfinalizers fun finalizers hfinalizers => ?_
  refine yields_pure (weighsOne_call (by decide) ?_)
  rw [g.tally_of_own rfl]
  simpa [below, kept, children, add_assoc] using
    g.add hbody.rel (g.add hhandlers.rel hfinalizers.rel)

/-! ### Imports and exports -/

@[simp] theorem weight_property (name : String) (form : Form) :
    g.weight (property name form) = g.weight form := by
  rw [property, g.weight_call (isPlainWord_dotGetterName name)]
  simp

@[simp] theorem weight_requireModule (source : String) : g.weight (requireModule source) = 0 := by
  rw [requireModule, g.weight_call (isPlainWord_hostName (by decide))]
  simp

@[simp] theorem weight_exportForm (name : String) (value : Form) :
    g.weight (exportForm name value) = g.weight value := by
  have hexports := g.plain (isPlainWord_hostName (show "exports" ∈ reservedHosts by decide))
  rw [exportForm, g.weight_call (by decide)]
  simp [hexports]

theorem weighs_importSpecifier (source : String) {node : Node} (h : g.Covers node) :
    Yields (importSpecifier source node) (g.WeighsOne (g.tally node)) := by
  have hdefinition : ∀ (name : String) (form : Form), name ∈ node.ownName? → g.weight form = 0 →
      g.WeighsOne (g.name name) (.call "def" [.symbol name, form]) := by
    intro name form hname hform
    exact weighsOne_call (by decide) (by simpa [hform] using g.symbol h.admits hname)
  cases node with
  | importNamespaceSpecifier localName | importDefaultSpecifier localName
  | importSpecifier imported localName =>
    rw [g.tally_of_below rfl]
    exact yields_ok (hdefinition localName _ rfl (by simp))
  | _ => exact yields_error _

theorem weighs_importDeclaration {specifiers : List Node} {source : String}
    (h : g.Covers (.importDeclaration specifiers source)) :
    Yields (importDeclaration specifiers source)
      (g.Weighs (g.tally (.importDeclaration specifiers source))) := by
  rw [g.tally_of_own rfl]
  unfold importDeclaration
  split
  · rename_i hempty
    rw [List.isEmpty_iff] at hempty
    have hrequire : g.WeighsOne 0 (requireModule source) :=
      ⟨by simpa using g.zero, isHead_of_symbol?_eq_none rfl⟩
    exact yields_ok (by simpa [below, kept, children, hempty] using hrequire.singleton)
  · exact weighs_trees fun node hm => weighs_importSpecifier source (h.child hm)

theorem weighs_exportSpecifier {node : Node} (h : g.Covers node) :
    Yields (exportSpecifier node) (g.WeighsOne (g.tally node)) := by
  cases node with
  | exportSpecifier localName exported =>
    have hsymbol := g.symbol h.admits (show localName ∈ ownName? _ from rfl)
    rw [← weight_exportForm exported] at hsymbol
    rw [g.tally_of_below rfl]
    exact yields_ok ⟨hsymbol, isHead_of_symbol?_eq_none rfl⟩
  | _ => exact yields_error _

theorem weighs_exportDefault (hv : Weighs g visit) {declaration : Node}
    (h : g.Covers declaration) :
    Yields (exportDefault visit declaration) (g.WeighsOne (g.tally declaration)) := by
  unfold exportDefault
  split
  · rename_i id params body
    cases id with
    | identifier text =>
      rw [bindingName, ok_bind]
      refine yields_bind (hv.one h rfl) fun definition hdefinition => ?_
      refine yields_pure (weighsOne_call (by decide) ?_)
      have hid : g.Covers (.identifier text) := h.child (by simp [children])
      have htotal : g.tally (.functionDeclaration (.identifier text) params body) =
          g.name text + (g.tallies params + g.tally body) := by
        rw [g.tally_of_own rfl]
        simp [below, kept, children]
      have hdefined := hdefinition.rel
      rw [htotal] at hdefined ⊢
      -- The name of the function stands in the forms twice.
      simpa using g.echo_name (g.symbol hid.admits rfl) hdefined
    | _ => exact yields_error _
  · refine yields_bind (hv.one h rfl) fun value hvalue => ?_
    exact yields_pure ⟨by simpa using hvalue.rel, isHead_of_symbol?_eq_none rfl⟩

/-- A name that a form defines stands in the form. -/
theorem exists_weight_definedName (g : Gauge M) {form : Form} {name : String}
    (h : form.definedName? = some name) :
    ∃ rest, g.weight form = g.weight (.symbol name) + rest := by
  unfold definedName? at h
  split at h
  · rename_i head target rest
    split at h
    · rename_i hhead
      have hplain : IsPlainWord head := by rcases hhead with rfl | rfl <;> decide
      cases target with
      | symbol text =>
        simp only [symbol?, Option.some.injEq] at h
        subst h
        have hcall := g.weight_call hplain (.symbol text :: rest)
        rw [g.weights_cons] at hcall
        exact ⟨_, hcall⟩
      | _ => cases h
    · cases h
  · cases h

/-- The names that some of the forms define may be exported behind the forms. -/
theorem rel_exports {front definitions : List Form} {total : M} {after : M}
    (h : g.Rel (g.weights (front ++ definitions) + after) total) :
    g.Rel (g.weights (front ++ definitions) + (after + g.weights
      ((definitions.filterMap definedName?).map fun name => exportForm name (.symbol name))))
      total := by
  induction definitions generalizing front after with
  | nil => simpa using h
  | cons form forms ih =>
    rw [List.append_cons] at h ⊢
    rw [List.filterMap_cons]
    split
    · exact ih h
    · rename_i name hname
      obtain ⟨rest, hweight⟩ := exists_weight_definedName g hname
      have hrepeated : g.Rel (g.weights (front ++ [form] ++ forms) +
          (after + g.weight (.symbol name))) total := by
        have hsplit : g.weights (front ++ [form] ++ forms) + after =
            g.weights front + (g.weight (.symbol name) + (rest + g.weights forms + after)) := by
          simp [hweight, add_assoc]
        rw [hsplit] at h
        rw [← add_assoc, hsplit]
        exact g.echo h
      simpa [add_assoc] using ih hrepeated

theorem weighs_exportNamed (hv : Weighs g visit) {declaration : Option Node}
    {specifiers : List Node} (h : g.Covers (.exportNamedDeclaration declaration specifiers)) :
    Yields (exportNamed visit declaration specifiers)
      (g.Weighs (g.tally (.exportNamedDeclaration declaration specifiers))) := by
  rw [g.tally_of_own rfl]
  have hfits := h.fits
  cases declaration with
  | none => exact weighs_trees fun node hm => weighs_exportSpecifier (h.child hm)
  | some declaration =>
    simp only [fits, Bool.and_eq_true, List.isEmpty_iff] at hfits
    refine yields_bind (hv.forms (h.child (by simp [children])) rfl) ?_
    intro definitions hdefinitions
    refine yields_pure (weighsOne_call (by decide) ?_).singleton
    have hdefined : g.Rel (g.weights ([] ++ definitions) + 0) (g.tally declaration) := by
      simpa using hdefinitions.rel
    simpa [below, kept, children, hfits.2] using rel_exports hdefined

end Rule

end ScriptForms
