import ScriptForms.Proofs.Agreement.Basic

/-!
# Statements in two conversions

One lemma per rule for definitions, statement lists, conditions, switches, exceptions, imports and
exports: on a covered tree the rule fails for the same reason in both conversions, or gives related
forms, if the two conversions agree on the trees below.
-/

namespace ScriptForms

open Node Form

namespace Comparison

variable {c : Comparison}

/-- Related definitions of the same name. -/
def Defines (c : Comparison) (form other : Form) : Prop :=
  c.Related form other ∧ c.DefineAlike form other

/-- A list whose head is `def` or `defn` defines the name after the head. -/
theorem defines_call {head : String} (hh : head = "def" ∨ head = "defn") {name name' : Form}
    (hn : c.SameName name name') {args others : List Form}
    (h : List.Forall₂ c.Related args others) :
    c.Defines (.call head (name :: args)) (.call head (name' :: others)) := by
  have hfixed : head ∈ vocabulary := by
    rcases hh with rfl | rfl <;> decide
  refine ⟨related_call (.fixed hfixed) (.cons hn.related h), ?_⟩
  obtain ⟨text, hw, rfl, rfl⟩ := hn
  refine ⟨text, hw, ?_, ?_⟩ <;> simp [Form.call, definedName?, hh, symbol?]

/-- Definitions of the same names give the same names. -/
theorem filterMap_definedName? {forms others : List Form}
    (h : List.Forall₂ c.DefineAlike forms others) :
    forms.filterMap definedName? = others.filterMap definedName? ∧
      ∀ text ∈ others.filterMap definedName?, c.word text := by
  induction h with
  | nil => exact ⟨rfl, by simp⟩
  | cons hform _ ih =>
    obtain ⟨text, hw, hl, hr⟩ := hform
    rw [List.filterMap_cons_some hl, List.filterMap_cons_some hr, ih.1, List.forall_mem_cons]
    exact ⟨rfl, hw, ih.2⟩

end Comparison

namespace Rule

open Comparison

variable {c : Comparison} {visit₁ visit₂ : Visit}

/-! ### Functions and definitions -/

/-- A function is a list of the head, the name and related forms. -/
theorem agree_function (hv : Agrees c visit₁ visit₂) (head : String) (name name' : Option Form)
    {params : List Node} {body : Node} (hp : ∀ p ∈ params, c.Covers p) (hb : c.Covers body) :
    Agree (fun form other => ∃ args others, List.Forall₂ c.Related args others ∧
        form = .call head (name.toList ++ args) ∧ other = .call head (name'.toList ++ others))
      (function visit₁ head name params body) (function visit₂ head name' params body) := by
  refine agree_bind (agree_bindingNames hp) fun params params' hparams => ?_
  refine agree_bind (hv.block hb) fun forms others hforms => agree_pure ?_
  exact ⟨_, _, .cons (c.vector hparams) hforms, rfl, rfl⟩

/-- A function expression, with or without a name. -/
theorem agree_lambda (hv : Agrees c visit₁ visit₂) {name name' : Option Form}
    (hn : List.Forall₂ c.Related name.toList name'.toList) {params : List Node} {body : Node}
    (hp : ∀ p ∈ params, c.Covers p) (hb : c.Covers body) :
    Agree c.Related (function visit₁ "fn" name params body)
      (function visit₂ "fn" name' params body) := by
  refine (agree_function hv "fn" name name' hp hb).imp ?_
  rintro form other ⟨args, others, hargs, rfl, rfl⟩
  exact related_fixedCall (by decide) (related_append hn hargs)

theorem agree_definition (hv : Agrees c visit₁ visit₂) {name name' : Form}
    (hn : c.SameName name name') {params : List Node} {body : Node}
    (hp : ∀ p ∈ params, c.Covers p) (hb : c.Covers body) :
    Agree c.Defines (function visit₁ "defn" (some name) params body)
      (function visit₂ "defn" (some name') params body) := by
  refine (agree_function hv "defn" (some name) (some name') hp hb).imp ?_
  rintro form other ⟨args, others, hargs, rfl, rfl⟩
  exact defines_call (.inr rfl) hn hargs

theorem agree_declarator (hv : Agrees c visit₁ visit₂) {node : Node} (h : c.Covers node) :
    Agree c.Defines (declarator visit₁ node) (declarator visit₂ node) := by
  cases node with
  | variableDeclarator id init =>
    refine agree_bind (agree_bindingName (h.child (by simp [children]))) fun name name' hname => ?_
    have hinit : ∀ m ∈ init, c.Covers m := fun m hm => h.child (by simp_all [children])
    split
    · rename_i params body
      have hfunction := hinit _ rfl
      exact agree_definition hv hname (fun p hm => hfunction.child (by simp [children, hm]))
        (hfunction.child (by simp [children]))
    · rename_i params body
      have hfunction := hinit _ rfl
      exact agree_definition hv hname (fun p hm => hfunction.child (by simp [children, hm]))
        (hfunction.child (by simp [children]))
    · rename_i init hne _
      refine agree_bind (hv.one (hinit init rfl) .value) fun value value' hvalue => agree_pure ?_
      exact defines_call (.inl rfl) hname (.cons hvalue .nil)
    · exact agree_pure (defines_call (.inl rfl) hname (.cons related_nil .nil))
  | _ => exact .error _

/-! ### Statement lists -/

theorem agree_binding (hv : Agrees c visit₁ visit₂) {node : Node} (h : c.Covers node) :
    Agree (List.Forall₂ c.Related) (binding visit₁ node) (binding visit₂ node) := by
  cases node with
  | variableDeclarator id init =>
    refine agree_bind (agree_bindingName (h.child (by simp [children]))) fun name name' hname => ?_
    cases init with
    | none => exact agree_pure (.cons hname.related (.cons related_nil .nil))
    | some init =>
      refine agree_bind (hv.one (h.child (by simp [children])) .value) fun value value' hvalue => ?_
      exact agree_pure (.cons hname.related (.cons hvalue .nil))
  | _ => exact .error _

theorem agree_bindings (hv : Agrees c visit₁ visit₂) {node : Node} (h : c.Covers node) :
    Agree (List.Forall₂ c.Related) (bindings visit₁ node) (bindings visit₂ node) := by
  cases node with
  | variableDeclaration kind declarations =>
    refine agree_bind (agree_mapM fun d hd => agree_binding hv (h.child hd)) ?_
    exact fun lists others hlists => agree_pure (related_flatten hlists)
  | _ => exact .error _

/-- The bindings and the forms of a statement list in two conversions. -/
def RelatedSplit (c : Comparison) (split other : List Form × List Form) : Prop :=
  List.Forall₂ c.Related split.1 other.1 ∧ List.Forall₂ c.Related split.2 other.2

theorem RelatedSplit.closeLet {split other : List Form × List Form} (body : List Node)
    (h : RelatedSplit c split other) :
    List.Forall₂ c.Related (closeLet body split) (closeLet body other) := by
  unfold Rule.closeLet
  split
  · exact .cons (related_fixedCall (by decide) (.cons (c.vector h.1) h.2)) .nil
  · exact h.2

theorem agree_splitStatements (hv : Agrees c visit₁ visit₂) {body : List Node}
    (h : ∀ s ∈ body, c.Covers s) :
    Agree (RelatedSplit c) (splitStatements visit₁ body) (splitStatements visit₂ body) := by
  induction body with
  | nil => exact .ok ⟨.nil, .nil⟩
  | cons statement rest ih =>
    rw [List.forall_mem_cons] at h
    have ih := ih h.2
    unfold splitStatements
    -- Whether a statement is a declaration does not depend on the conversion.
    split
    · refine agree_bind (agree_bindings hv h.1) fun first first' hfirst => ?_
      refine agree_bind ih fun split split' hsplit => ?_
      exact agree_pure ⟨related_append hfirst hsplit.1, hsplit.2⟩
    · refine agree_bind (hv.forms h.1 .value) fun first first' hfirst => ?_
      refine agree_bind ih fun split split' hsplit => ?_
      exact agree_pure ⟨.nil, related_append (related_filter hfirst) (hsplit.closeLet rest)⟩

theorem agree_statements (hv : Agrees c visit₁ visit₂) {body : List Node}
    (h : ∀ s ∈ body, c.Covers s) :
    Agree (List.Forall₂ c.Related) (statements visit₁ body) (statements visit₂ body) :=
  agree_bind (agree_splitStatements hv h) fun _ _ hsplit => agree_pure (hsplit.closeLet body)

/-- Two programs with related children. -/
def RelatedPrograms (c : Comparison) (form other : Form) : Prop :=
  ∃ forms others, List.Forall₂ c.Related forms others ∧ form = .program forms ∧
    other = .program others

theorem agree_program (hv : Agrees c visit₁ visit₂) {body : List Node}
    (h : ∀ s ∈ body, c.Covers s) :
    Agree (RelatedPrograms c) (program visit₁ body) (program visit₂ body) := by
  refine agree_bind (agree_mapM (r := List.Forall₂ c.Related) fun s hs => ?_)
    fun lists others hlists => agree_pure ⟨_, _, related_flatten hlists, rfl, rfl⟩
  refine agree_bind (hv.forms (h s hs) .value) fun forms others hforms => ?_
  -- Only an expression statement brings comments with it.
  split
  · rename_i expression comments
    refine agree_pure (related_append ?_ hforms)
    have hlines := ((h _ hs).texts _ (mem_subtrees_self _)).comment
    exact List.forall₂_map_left_iff.2 (List.forall₂_map_right_iff.2
      (List.forall₂_same.2 fun line hline => c.comment (hlines line hline)))
  · exact agree_pure hforms

/-! ### Conditions -/

theorem agree_branchTest (hv : Agrees c visit₁ visit₂) {branch : Branch}
    (h : ∀ test ∈ branch.test, c.Covers test) :
    Agree c.Related (branchTest visit₁ branch) (branchTest visit₂ branch) := by
  unfold branchTest
  split
  · rename_i test htest
    exact hv.one (h test htest) .value
  · exact .ok (c.keyword (.fixed (by decide)))

theorem agree_branchPair (hv : Agrees c visit₁ visit₂) {branch : Branch}
    (ht : ∀ test ∈ branch.test, c.Covers test) (hb : c.Covers branch.body) :
    Agree (List.Forall₂ c.Related) (branchPair visit₁ branch) (branchPair visit₂ branch) := by
  refine agree_bind (agree_branchTest hv ht) fun test test' htest => ?_
  refine agree_bind (hv.block hb) fun body body' hbody => agree_pure ?_
  exact .cons htest (.cons (related_sequence hbody) .nil)

theorem agree_ifStatement (hv : Agrees c visit₁ visit₂) {test consequent : Node}
    {alternate : Option Node} (h : c.Covers (.ifStatement test consequent alternate)) :
    Agree c.Related (ifStatement visit₁ (.ifStatement test consequent alternate))
      (ifStatement visit₂ (.ifStatement test consequent alternate)) := by
  have hfit := branches_fit h.grammatical
  have hb : ∀ branch ∈ (Node.ifStatement test consequent alternate).branches,
      c.Covers branch.body := fun branch hm => h.descendant (hfit branch hm).1.1
  have ht : ∀ branch ∈ (Node.ifStatement test consequent alternate).branches,
      ∀ t ∈ branch.test, c.Covers t := fun branch hm t hmt =>
    h.descendant ((hfit branch hm).2 t hmt).1
  unfold ifStatement
  split
  · rename_i only heq
    rw [heq, List.forall_mem_singleton] at hb ht
    refine agree_bind (agree_branchTest hv ht) fun test test' htest => ?_
    refine agree_bind (hv.block hb) fun body body' hbody => agree_pure ?_
    exact related_fixedCall (by decide) (.cons htest hbody)
  · rename_i first other heq
    rw [heq, List.forall_mem_cons, List.forall_mem_singleton] at hb ht
    refine agree_bind (agree_branchPair hv ht.1 hb.1) fun pair pair' hpair => ?_
    refine agree_bind (hv.block hb.2) fun other other' hother => agree_pure ?_
    have hlast := List.Forall₂.cons (related_sequence hother) .nil
    exact related_fixedCall (by decide) (related_append hpair hlast)
  · have hpairs := agree_mapM fun branch hm => agree_branchPair hv (ht branch hm) (hb branch hm)
    refine agree_bind hpairs fun pairs pairs' hpairs => agree_pure ?_
    refine related_fixedCall (by decide) (related_append (related_flatten hpairs) ?_)
    split
    · exact .cons (c.keyword (.fixed (by decide))) (.cons related_nil .nil)
    · exact .nil

/-! ### Switches -/

theorem related_caseTest {tests others : List Form} (h : List.Forall₂ c.Related tests others) :
    c.Related (caseTest tests) (caseTest others) := by
  cases h with
  | nil => exact c.list .nil
  | cons hfirst h =>
    cases h with
    | nil => exact hfirst
    | cons hsecond h => exact c.list (.cons hfirst (.cons hsecond h))

theorem related_caseBody {forms others : List Form} (h : List.Forall₂ c.Related forms others) :
    c.Related (caseBody forms) (caseBody others) := by
  cases h with
  | nil => exact related_nil
  | cons hfirst h => exact related_sequence (.cons hfirst h)

/-- The clauses of a `switch` and its default body in two conversions. -/
def RelatedClauses (c : Comparison) (result other : List Form × Option Form) : Prop :=
  List.Forall₂ c.Related result.1 other.1 ∧
    List.Forall₂ c.Related result.2.toList other.2.toList

/-- A later default body wins on both sides or on neither. -/
theorem related_orElse {default default' : Option Form}
    (h : List.Forall₂ c.Related default.toList default'.toList) {form form' : Form}
    (hform : c.Related form form') :
    List.Forall₂ c.Related (default <|> some form).toList (default' <|> some form').toList := by
  cases default <;> cases default' <;> simp_all

theorem agree_clauses (hv : Agrees c visit₁ visit₂) {cases : List Node}
    (h : ∀ node ∈ cases, c.Covers node) (clause : Nat) {tests others : List Form}
    (ht : List.Forall₂ c.Related tests others) :
    Agree (RelatedClauses c) (clauses visit₁ clause tests cases)
      (clauses visit₂ clause others cases) := by
  -- The tests that wait for a body are related in both conversions.
  induction cases generalizing clause tests others with
  | nil =>
    cases ht with
    | nil => exact .ok ⟨.nil, .nil⟩
    | cons hfirst ht =>
      exact .ok ⟨.cons (related_caseTest (.cons hfirst ht)) (.cons related_nil .nil), .nil⟩
  | cons node rest ih =>
    rw [List.forall_mem_cons] at h
    have ih := ih h.2
    cases node with
    | switchCase test consequent =>
      have hcovers := h.1
      have htest : ∀ t ∈ test, c.Covers t := fun t hm => hcovers.child (by simp_all [children])
      have hbody := clauseBody_fits hcovers.grammatical
      have hstatements := agree_statements hv fun s hs => hcovers.descendant (hbody s hs).1
      cases consequent with
      | nil =>
        cases test with
        | none =>
          rw [clauses, clauses]
          exact .error _
        | some test =>
          rw [clauses, clauses]
          refine agree_bind (hv.one (htest test rfl) .value) fun form form' hform => ?_
          exact ih (clause + 1) (related_append ht (.cons hform .nil))
      | cons statement others =>
        simp only [clauses]
        refine agree_check (agree_check (agree_bind hstatements fun forms forms' hforms => ?_))
        have hlater := ih (clause + 1) .nil
        cases test with
        | none =>
          refine agree_bind hlater fun later later' hlater => agree_pure ⟨hlater.1, ?_⟩
          exact related_orElse hlater.2 (related_caseBody hforms)
        | some test =>
          refine agree_bind (hv.one (htest test rfl) .value) fun form form' hform => ?_
          refine agree_bind hlater fun later later' hlater => agree_pure ⟨?_, hlater.2⟩
          have hgroup := related_caseTest (related_append ht (.cons hform .nil))
          exact .cons hgroup (.cons (related_caseBody hforms) hlater.1)
    | _ =>
      simp only [clauses]
      exact .error _

theorem agree_switchStatement (hv : Agrees c visit₁ visit₂) {discriminant : Node}
    {cases : List Node} (h : c.Covers (.switchStatement discriminant cases)) :
    Agree c.Related (switchStatement visit₁ discriminant cases)
      (switchStatement visit₂ discriminant cases) := by
  have hc : ∀ node ∈ cases, c.Covers node := fun node hm => h.child (by simp [children, hm])
  refine agree_bind (hv.one (h.child (by simp [children])) .value) fun value value' hvalue => ?_
  refine agree_bind (agree_clauses hv hc 1 .nil) fun result result' hresult => agree_pure ?_
  refine related_fixedCall (by decide) (related_append (.cons hvalue hresult.1) (.cons ?_ .nil))
  obtain ⟨pairs, default⟩ := result
  obtain ⟨pairs', default'⟩ := result'
  have hdefault := hresult.2
  cases default <;> cases default' <;> simp_all [related_nil]

/-! ### Exceptions -/

theorem agree_catchClause (hv : Agrees c visit₁ visit₂) {node : Node} (h : c.Covers node) :
    Agree c.Related (catchClause visit₁ node) (catchClause visit₂ node) := by
  cases node with
  | catchClause param body =>
    have hrest : ∀ name name' : Form, c.Related name name' → Agree c.Related
        (do
          let forms ← visit₁.block body
          return Form.call "catch" (.symbol (hostName "Object") :: name :: forms))
        (do
          let forms ← visit₂.block body
          return Form.call "catch" (.symbol (hostName "Object") :: name' :: forms)) := by
      intro name name' hname
      refine agree_bind (hv.block (h.child (by simp [children]))) fun forms others hforms => ?_
      have hthrown : c.Related (.symbol (hostName "Object")) (.symbol (hostName "Object")) :=
        related_fixed (by decide)
      exact agree_pure (related_fixedCall (by decide) (.cons hthrown (.cons hname hforms)))
    cases param with
    | none => exact hrest _ _ (related_fixed (by decide))
    | some param =>
      refine agree_bind (agree_bindingName (h.child (by simp [children]))) ?_
      exact fun name name' hname => hrest name name' hname.related
  | _ => exact .error _

theorem agree_tryStatement (hv : Agrees c visit₁ visit₂) {block : Node}
    {handler finalizer : Option Node} (h : c.Covers (.tryStatement block handler finalizer)) :
    Agree c.Related (tryStatement visit₁ block handler finalizer)
      (tryStatement visit₂ block handler finalizer) := by
  have hhandlers : Agree (List.Forall₂ c.Related) (handler.toList.mapM (catchClause visit₁))
      (handler.toList.mapM (catchClause visit₂)) := by
    refine agree_mapM fun node hm => agree_catchClause hv (h.child ?_)
    simp [children, List.mem_append, hm]
  have hfinalizers : Agree (List.Forall₂ c.Related)
      (finalizer.toList.mapM fun node => return Form.call "finally" (← visit₁.block node))
      (finalizer.toList.mapM fun node => return Form.call "finally" (← visit₂.block node)) := by
    refine agree_mapM fun node hm => ?_
    have hnode := hv.block (h.child (by simp [children, List.mem_append, hm] : node ∈ _))
    refine agree_bind hnode fun forms others hforms => ?_
    exact agree_pure (related_fixedCall (by decide) hforms)
  refine agree_bind (hv.block (h.child (by simp [children]))) fun body body' hbody => ?_
  refine agree_bind hhandlers fun handlers handlers' hhandlers => ?_
  refine agree_bind hfinalizers fun finalizers finalizers' hfinalizers => agree_pure ?_
  exact related_fixedCall (by decide) (related_append (related_append hbody hhandlers) hfinalizers)

/-! ### Imports and exports -/

theorem related_property {name : String} (hw : Written c.word (dotGetterName name))
    {form other : Form} (h : c.Related form other) :
    c.Related (property name form) (property name other) :=
  related_call hw (.cons h .nil)

theorem related_requireModule (source : String) :
    c.Related (requireModule source) (requireModule source) :=
  related_fixedCall (by decide) (.cons (c.string source) .nil)

theorem agree_importSpecifier (source : String) {node : Node} (h : c.Covers node) :
    Agree c.Related (importSpecifier source node) (importSpecifier source node) := by
  have hdef : ∀ {name : String} {form : Form}, name ∈ node.words → c.Related form form →
      c.Related (.call "def" [.symbol name, form]) (.call "def" [.symbol name, form]) :=
    fun hm hform =>
      related_fixedCall (by decide) (.cons (c.symbol (.own (h.word hm))) (.cons hform .nil))
  cases node with
  | importNamespaceSpecifier localName =>
    exact .ok (hdef (by simp [words]) (related_requireModule source))
  | importDefaultSpecifier localName =>
    exact .ok (hdef (by simp [words])
      (related_property (.fixed (by decide)) (related_requireModule source)))
  | importSpecifier imported localName =>
    exact .ok (hdef (by simp [words])
      (related_property (.dotGetter (h.word (by simp [words]))) (related_requireModule source)))
  | _ => exact .error _

theorem agree_importDeclaration {specifiers : List Node} {source : String}
    (h : c.Covers (.importDeclaration specifiers source)) :
    Agree (List.Forall₂ c.Related) (importDeclaration specifiers source)
      (importDeclaration specifiers source) := by
  unfold importDeclaration
  split
  · exact .ok (.cons (related_requireModule source) .nil)
  · exact agree_mapM fun node hm => agree_importSpecifier source (h.child hm)

theorem related_exportForm {name : String} (hw : Written c.word (dotGetterName name))
    {value value' : Form} (h : c.Related value value') :
    c.Related (exportForm name value) (exportForm name value') :=
  have hexports := related_property hw (related_fixed (by decide))
  related_fixedCall (by decide) (.cons hexports (.cons h .nil))

theorem agree_exportDefault (hv : Agrees c visit₁ visit₂) {declaration : Node}
    (h : c.Covers declaration) :
    Agree c.Related (exportDefault visit₁ declaration) (exportDefault visit₂ declaration) := by
  unfold exportDefault
  split
  · refine agree_bind (agree_bindingName (h.child (by simp [children]))) fun name name' hname => ?_
    refine agree_bind (hv.one h .value) fun form form' hform => agree_pure ?_
    have hexport : c.Related (exportForm defaultExport name) (exportForm defaultExport name') :=
      related_exportForm (.fixed (by decide)) hname.related
    exact related_fixedCall (by decide) (.cons hform (.cons hexport .nil))
  · refine agree_bind (hv.one h .value) fun value value' hvalue => agree_pure ?_
    exact related_exportForm (.fixed (by decide)) hvalue

theorem agree_exportSpecifier {node : Node} (h : c.Covers node) :
    Agree c.Related (exportSpecifier node) (exportSpecifier node) := by
  cases node with
  | exportSpecifier localName exported =>
    exact .ok (related_exportForm (.dotGetter (h.word (by simp [words])))
      (c.symbol (.own (h.word (by simp [words])))))
  | _ => exact .error _

/-- A declaration and the exports of the names it defines: both conversions define the same names,
so that they export the same names. -/
theorem agree_exportNamed (hv : Agrees c visit₁ visit₂) {declaration : Option Node}
    {specifiers : List Node} (h : c.Covers (.exportNamedDeclaration declaration specifiers)) :
    Agree (List.Forall₂ c.Related) (exportNamed visit₁ declaration specifiers)
      (exportNamed visit₂ declaration specifiers) := by
  cases declaration with
  | none =>
    exact agree_mapM fun node hm => agree_exportSpecifier (h.child (by simp [children, hm]))
  | some declaration =>
    have hdefinition : declaration.isDefinition := by
      have hfits := (grammatical_iff.1 h.grammatical).1
      simp only [fits, Bool.and_eq_true] at hfits
      exact hfits.1
    have hchild : c.Covers declaration := h.child (by simp [children])
    refine agree_bind (hv declaration hchild .value) fun forms others hforms => agree_pure ?_
    obtain ⟨hnames, hwords⟩ := filterMap_definedName? (hforms.defined hdefinition)
    rw [hnames]
    refine .cons (related_fixedCall (by decide) (related_append hforms.forms ?_)) .nil
    exact List.forall₂_map_left_iff.2 (List.forall₂_map_right_iff.2 (List.forall₂_same.2
      fun name hm => related_exportForm (.dotGetter (hwords name hm))
        (c.symbol (.own (hwords name hm)))))

end Rule

end ScriptForms
