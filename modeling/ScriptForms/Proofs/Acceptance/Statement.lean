import ScriptForms.Proofs.Acceptance.Basic
import ScriptForms.Rule.Module

/-!
# Which statements have forms

One lemma per rule for statement lists, conditions, switches, exceptions, imports and exports: the
rule succeeds on a grammatical tree iff the tree is accepted.
-/

namespace ScriptForms.Rule

open Node

variable {visit : Visit}

/-! ### Statement lists -/

theorem succeeds_binding {id : Node} {init : Option Node}
    (hv : DecidesBelow visit (Node.variableDeclarator id init).size)
    (hg : (Node.variableDeclarator id init).Grammatical) :
    Succeeds (binding visit (.variableDeclarator id init)) ↔
      (Node.variableDeclarator id init).Accepted := by
  have hfits := (grammatical_iff.1 hg).1
  simp only [fits, Bool.and_eq_true] at hfits
  have hname := succeeds_bindingName hfits.1
  rw [accepted_iff (.variableDeclarator ..)]
  cases init with
  | none => simp [binding, isRefused, children, hname]
  | some init =>
    have hinit : Decides visit init := hv.child hg (by simp [children])
      (standsAlone_of_isExpression (by simpa using hfits.2))
    simp [binding, isRefused, children, hname, hinit .value]

/-- A rule for declarators, used on every declarator of a declaration. -/
theorem succeeds_declarators {α : Type} {rule : Node → Except Fault α} {kind : BindingKind}
    {declarations : List Node}
    (hr : ∀ {id init}, DecidesBelow visit (Node.variableDeclarator id init).size →
      (Node.variableDeclarator id init).Grammatical →
      (Succeeds (rule (.variableDeclarator id init)) ↔
        (Node.variableDeclarator id init).Accepted))
    (hv : DecidesBelow visit (Node.variableDeclaration kind declarations).size)
    (hg : (Node.variableDeclaration kind declarations).Grammatical) :
    Succeeds (declarations.mapM rule) ↔ (Node.variableDeclaration kind declarations).Accepted := by
  have hfits := (grammatical_iff.1 hg).1
  simp only [fits, List.all_eq_true] at hfits
  rw [succeeds_mapM, accepted_iff (.variableDeclaration ..)]
  simp only [isRefused, children, Bool.false_eq_true, not_false_iff, true_and]
  refine forall₂_congr fun declarator hd => ?_
  have hc : declarator ∈ (Node.variableDeclaration kind declarations).children := hd
  have hdeclarator := hfits declarator hd
  obtain ⟨id, init, rfl⟩ := eq_variableDeclarator_of_isDeclarator hdeclarator
  exact hr (hv.descend hc) (hg.child hc)

theorem succeeds_bindings {node : Node} (hd : node.isDeclaration)
    (hv : DecidesBelow visit node.size) (hg : node.Grammatical) :
    Succeeds (bindings visit node) ↔ node.Accepted := by
  obtain ⟨kind, declarations, rfl⟩ := eq_variableDeclaration_of_isDeclaration hd
  rw [← succeeds_declarators succeeds_binding hv hg]
  simp [bindings]

theorem succeeds_splitStatements {n : Nat} (hv : DecidesBelow visit n) {body : List Node}
    (hsize : ∀ s ∈ body, s.size < n) (hg : ∀ s ∈ body, s.Grammatical)
    (hs : ∀ s ∈ body, s.isStatement) :
    Succeeds (splitStatements visit body) ↔ ∀ s ∈ body, s.Accepted := by
  induction body with
  | nil => simp [splitStatements]
  | cons statement rest ih =>
    rw [List.forall_mem_cons] at hsize hg hs
    have ih := ih hsize.2 hg.2 hs.2
    rw [List.forall_mem_cons, splitStatements]
    split
    · rename_i hd
      have hfirst := succeeds_bindings hd (hv.mono (Nat.le_of_lt hsize.1)) hg.1
      simp [hfirst, ih]
    · have hfirst := hv statement hsize.1 hg.1 (standsAlone_of_isStatement hs.1) .value
      simp [hfirst, ih]

theorem succeeds_statements {n : Nat} (hv : DecidesBelow visit n) {body : List Node}
    (hsize : ∀ s ∈ body, s.size < n) (hg : ∀ s ∈ body, s.Grammatical)
    (hs : ∀ s ∈ body, s.isStatement) :
    Succeeds (statements visit body) ↔ ∀ s ∈ body, s.Accepted := by
  rw [← succeeds_splitStatements hv hsize hg hs]
  simp [statements]

theorem succeeds_program {n : Nat} (hv : DecidesBelow visit n) {body : List Node}
    (hsize : ∀ s ∈ body, s.size < n) (hg : ∀ s ∈ body, s.Grammatical)
    (hs : ∀ s ∈ body, s.isStatement) :
    Succeeds (program visit body) ↔ ∀ s ∈ body, s.Accepted := by
  have hitem : ∀ s ∈ body, Succeeds (visit s .value) ↔ s.Accepted := fun s hm =>
    hv s (hsize s hm) (hg s hm) (standsAlone_of_isStatement (hs s hm)) .value
  rw [program]
  simp only [succeeds_bind, succeeds_pure, and_true, exists_eq_ok_iff, succeeds_mapM]
  refine forall₂_congr fun s hm => ?_
  rw [← hitem s hm]
  constructor
  · rintro ⟨forms, h, -⟩
    exact ⟨forms, h⟩
  · rintro ⟨forms, h⟩
    refine ⟨forms, h, ?_⟩
    split <;> simp

/-! ### Conditions -/

theorem succeeds_branchTest {branch : Branch} (ht : ∀ test ∈ branch.test, Decides visit test) :
    Succeeds (branchTest visit branch) ↔ ∀ test ∈ branch.test, test.Accepted := by
  unfold branchTest
  split
  · rename_i test heq
    simp only [heq, Option.mem_some_iff, forall_eq'] at ht ⊢
    simp [ht .value]
  · rename_i heq
    simp [heq]

theorem succeeds_branchPair {branch : Branch} (ht : ∀ test ∈ branch.test, Decides visit test)
    (hb : Decides visit branch.body) :
    Succeeds (branchPair visit branch) ↔
      (∀ test ∈ branch.test, test.Accepted) ∧ branch.body.Accepted := by
  rw [branchPair, succeeds_bind_iff fun _ _ => ?_, succeeds_branchTest ht]
  simp [hb .body]

theorem succeeds_ifStatement {test consequent : Node} {alternate : Option Node}
    (hv : DecidesBelow visit (Node.ifStatement test consequent alternate).size)
    (hg : (Node.ifStatement test consequent alternate).Grammatical) :
    Succeeds (ifStatement visit (.ifStatement test consequent alternate)) ↔
      (Node.ifStatement test consequent alternate).Accepted := by
  have hbranch := branches_fit hg
  have hb : ∀ branch ∈ (Node.ifStatement test consequent alternate).branches,
      Decides visit branch.body := fun branch hm =>
    hv.descendant hg (hbranch branch hm).1.1 (standsAlone_of_isStatement (hbranch branch hm).1.2)
  have ht : ∀ branch ∈ (Node.ifStatement test consequent alternate).branches,
      ∀ t ∈ branch.test, Decides visit t := fun branch hm t hmt =>
    hv.descendant hg ((hbranch branch hm).2 t hmt).1
      (standsAlone_of_isExpression ((hbranch branch hm).2 t hmt).2)
  rw [← accepted_branches]
  unfold ifStatement
  split
  · rename_i only heq
    rw [heq] at hb ht ⊢
    rw [List.forall_mem_singleton] at hb ht ⊢
    rw [succeeds_bind_iff fun _ _ => ?_, succeeds_branchTest ht]
    simp [hb .body]
  · rename_i first body heq
    rw [heq] at hb ht ⊢
    rw [List.forall_mem_cons, List.forall_mem_singleton] at hb ht ⊢
    rw [succeeds_bind_iff fun _ _ => ?_, succeeds_branchPair ht.1 hb.1]
    simp [hb.2 .body]
  · simp only [succeeds_bind, succeeds_pure, and_true, exists_eq_ok_iff, succeeds_mapM]
    exact forall₂_congr fun branch hm => succeeds_branchPair (ht branch hm) (hb branch hm)

/-! ### Switches -/

theorem succeeds_clauseStatements {test : Option Node} {consequent : List Node}
    (hv : DecidesBelow visit (Node.switchCase test consequent).size)
    (hg : (Node.switchCase test consequent).Grammatical) :
    Succeeds (statements visit (clauseBody consequent)) ↔ ∀ s ∈ consequent, s.Accepted := by
  have hfits := clauseBody_fits hg
  rw [← accepted_clauseBody]
  exact succeeds_statements hv (fun s hs => size_lt_of_mem_descendants (hfits s hs).1)
    (fun s hs => hg.descendants (hfits s hs).1) (fun s hs => (hfits s hs).2)

theorem accepted_switchCase (test : Option Node) (consequent : List Node) :
    (Node.switchCase test consequent).Accepted ↔
      (∀ t ∈ test, t.Accepted) ∧ ∀ s ∈ consequent, s.Accepted := by
  rw [accepted_iff]
  cases test <;> simp [isRefused, children]

theorem refusesClauses_empty (test : Node) (rest : List Node) :
    refusesClauses (.switchCase (some test) [] :: rest) = refusesClauses rest := by
  simp [refusesClauses, clauseBody, openLastBlock, containsBreak]

/-- A clause with statements: its guards, its statements, its test and the clauses after it. -/
theorem succeeds_clause {test : Option Node} {statement : Node} {others rest : List Node}
    (hs : Succeeds (statements visit (clauseBody (statement :: others))) ↔
      ∀ s ∈ statement :: others, s.Accepted)
    (ht : ∀ t ∈ test, Decides visit t) (clause : Nat) (tests : List Form) :
    Succeeds (clauses visit clause tests (.switchCase test (statement :: others) :: rest)) ↔
      ¬(!rest.isEmpty && !endsWithExit (statement :: others)) ∧
      ¬containsBreak (clauseBody (statement :: others)) ∧
      (Node.switchCase test (statement :: others)).Accepted ∧
      Succeeds (clauses visit (clause + 1) [] rest) := by
  rw [accepted_switchCase]
  simp only [clauses, succeeds_check]
  refine and_congr_right fun _ => and_congr_right fun _ => ?_
  cases test with
  | none => simp [hs]
  | some test =>
    have ht := ht test rfl .value
    rw [succeeds_bind_iff (p := test.Accepted ∧ Succeeds (clauses visit (clause + 1) [] rest))
      fun forms _ => by simp [ht], hs]
    simp only [Option.mem_some_iff, forall_eq']
    rw [and_assoc, and_left_comm]

theorem succeeds_clauses {n : Nat} (hv : DecidesBelow visit n) {cases : List Node}
    (hsize : ∀ c ∈ cases, c.size ≤ n) (hg : ∀ c ∈ cases, c.Grammatical)
    (hc : ∀ c ∈ cases, c.isClause) (clause : Nat) (tests : List Form) :
    Succeeds (clauses visit clause tests cases) ↔
      ¬refusesClauses cases ∧ ∀ c ∈ cases, c.Accepted := by
  induction cases generalizing clause tests with
  | nil => cases tests <;> simp [clauses, refusesClauses]
  | cons node rest ih =>
    rw [List.forall_mem_cons] at hsize hg hc
    have ih := ih hsize.2 hg.2 hc.2
    obtain ⟨test, consequent, rfl⟩ := eq_switchCase_of_isClause hc.1
    have hnode := hv.mono hsize.1
    have hfits := (grammatical_iff.1 hg.1).1
    simp only [fits, Bool.and_eq_true, List.all_eq_true, Option.all_eq_true] at hfits
    have htest : ∀ t ∈ test, Decides visit t := fun t ht =>
      hnode.child hg.1 (by simp_all [children]) (standsAlone_of_isExpression (hfits.1 t ht))
    rw [List.forall_mem_cons]
    cases consequent with
    | nil =>
      rw [accepted_switchCase]
      cases test with
      | none => simp [clauses, refusesClauses]
      | some test =>
        have htest := htest test rfl .value
        rw [clauses, succeeds_bind_iff fun _ _ => ih _ _, refusesClauses_empty]
        simp [htest, and_left_comm]
    | cons statement others =>
      rw [succeeds_clause (succeeds_clauseStatements hnode hg.1) htest, ih]
      simp only [refusesClauses, List.isEmpty_cons, Bool.and_false, Bool.false_or, Bool.not_false,
        Bool.and_true, Bool.or_eq_true, not_or]
      rw [and_assoc, and_assoc, and_left_comm (b := ¬refusesClauses rest = true)]

theorem succeeds_switchStatement {discriminant : Node} {cases : List Node}
    (hv : DecidesBelow visit (Node.switchStatement discriminant cases).size)
    (hg : (Node.switchStatement discriminant cases).Grammatical) :
    Succeeds (switchStatement visit discriminant cases) ↔
      (Node.switchStatement discriminant cases).Accepted := by
  have hfits := (grammatical_iff.1 hg).1
  simp only [fits, Bool.and_eq_true, List.all_eq_true] at hfits
  have hc : ∀ c ∈ cases, c ∈ (Node.switchStatement discriminant cases).children := fun c hc => by
    simp [children, hc]
  have hvalue : Decides visit discriminant :=
    hv.child hg (by simp [children]) (standsAlone_of_isExpression hfits.1)
  have hclauses := succeeds_clauses hv (fun c h => Nat.le_of_lt (size_of_child (hc c h)))
    (fun c h => hg.child (hc c h)) hfits.2 1 []
  rw [accepted_iff (.switchStatement ..)]
  simp only [isRefused, children, List.forall_mem_cons]
  rw [switchStatement, succeeds_bind_iff (p := ¬refusesClauses cases ∧ ∀ c ∈ cases, c.Accepted)
    fun _ _ => by simp [hclauses], succeeds_one, hvalue, and_left_comm]

/-! ### Exceptions -/

theorem succeeds_catchClause {node : Node} (hn : node.isHandler)
    (hv : DecidesBelow visit node.size) (hg : node.Grammatical) :
    Succeeds (catchClause visit node) ↔ node.Accepted := by
  obtain ⟨param, body, rfl⟩ := eq_catchClause_of_isHandler hn
  have hfits := (grammatical_iff.1 hg).1
  simp only [fits, Bool.and_eq_true, Option.all_eq_true] at hfits
  have hbody : Decides visit body :=
    hv.child hg (by simp [children]) (standsAlone_of_isBlock hfits.2)
  rw [accepted_iff (.catchClause ..)]
  cases param with
  | none => simp [catchClause, isRefused, children, hbody .body]
  | some param =>
    have hname := succeeds_bindingName (hfits.1 param rfl)
    simp [catchClause, isRefused, children, hbody .body, hname]

theorem succeeds_tryStatement {block : Node} {handler finalizer : Option Node}
    (hv : DecidesBelow visit (Node.tryStatement block handler finalizer).size)
    (hg : (Node.tryStatement block handler finalizer).Grammatical) :
    Succeeds (tryStatement visit block handler finalizer) ↔
      (Node.tryStatement block handler finalizer).Accepted := by
  have hfits := (grammatical_iff.1 hg).1
  simp only [fits, Bool.and_eq_true, Option.all_eq_true] at hfits
  have hblock : Decides visit block :=
    hv.child hg (by simp [children]) (standsAlone_of_isBlock hfits.1.1)
  have hhandler : ∀ node ∈ handler.toList, Succeeds (catchClause visit node) ↔ node.Accepted := by
    intro node hm
    have hc : node ∈ (Node.tryStatement block handler finalizer).children := by
      simp [children, List.mem_append, hm]
    exact succeeds_catchClause (hfits.1.2 node (by simpa using hm)) (hv.descend hc) (hg.child hc)
  have hfinalizer : ∀ node ∈ finalizer.toList, Succeeds (visit node .body) ↔ node.Accepted := by
    intro node hm
    have hc : node ∈ (Node.tryStatement block handler finalizer).children := by
      simp [children, List.mem_append, hm]
    exact hv.child hg hc (standsAlone_of_isBlock (hfits.2 node (by simpa using hm))) .body
  rw [accepted_iff (.tryStatement ..)]
  simp only [tryStatement, isRefused, children, List.forall_mem_cons, List.forall_mem_append,
    succeeds_bind, succeeds_pure, succeeds_mapM, succeeds_block, hblock .body,
    forall₂_congr hhandler, forall₂_congr hfinalizer, and_true, exists_eq_ok_iff, exists_and_right,
    Bool.false_eq_true, not_false_iff, true_and]

/-! ### Imports and exports -/

theorem succeeds_importSpecifier {node : Node} (hn : node.isImportName) (source : String) :
    Succeeds (importSpecifier source node) ↔ node.Accepted := by
  cases node <;> simp [isImportName] at hn
  all_goals
    rw [accepted_iff]
    simp [importSpecifier, isRefused, children]

theorem succeeds_importDeclaration {specifiers : List Node} {source : String}
    (hg : (Node.importDeclaration specifiers source).Grammatical) :
    Succeeds (importDeclaration specifiers source) ↔
      (Node.importDeclaration specifiers source).Accepted := by
  have hfits := (grammatical_iff.1 hg).1
  simp only [fits, List.all_eq_true] at hfits
  have hnames : Succeeds (importDeclaration specifiers source) ↔
      ∀ node ∈ specifiers, node.Accepted := by
    unfold importDeclaration
    split
    · simp_all
    · rw [succeeds_mapM]
      exact forall₂_congr fun node hm => succeeds_importSpecifier (hfits node hm) source
  rw [hnames, accepted_iff (.importDeclaration ..)]
  simp [isRefused, children]

theorem succeeds_exportDefault {declaration : Node}
    (hv : DecidesBelow visit (Node.exportDefaultDeclaration declaration).size)
    (hg : (Node.exportDefaultDeclaration declaration).Grammatical) :
    Succeeds (exportDefault visit declaration) ↔
      (Node.exportDefaultDeclaration declaration).Accepted := by
  have hfits := (grammatical_iff.1 hg).1
  have hc : declaration ∈ (Node.exportDefaultDeclaration declaration).children := by
    simp [children]
  have hs : declaration.standsAlone := by
    cases declaration <;> simp_all [fits, isDefinition, isExpression, standsAlone, isStatement]
  have hd := hv.child hg hc hs .value
  rw [accepted_iff (.exportDefaultDeclaration ..)]
  simp only [isRefused, children, List.forall_mem_singleton, Bool.false_eq_true, not_false_iff,
    true_and]
  unfold exportDefault
  split
  · rename_i id params body
    have hfitsd := (grammatical_iff.1 (hg.child hc)).1
    simp only [fits, Bool.and_eq_true] at hfitsd
    rw [succeeds_bind_iff (p := (Node.functionDeclaration id params body).Accepted) fun _ _ => by
      simp [hd], succeeds_bindingName hfitsd.1.1]
    refine and_iff_right_of_imp fun ha => ?_
    exact ((accepted_iff _).1 ha).2 id (by simp [children])
  · simp [hd]

theorem succeeds_exportSpecifier {node : Node} (hn : node.isExportName) :
    Succeeds (exportSpecifier node) ↔ node.Accepted := by
  cases node <;> simp [isExportName] at hn
  rw [accepted_iff]
  simp [exportSpecifier, isRefused, children]

theorem succeeds_exportNamed {declaration : Option Node} {specifiers : List Node}
    (hv : DecidesBelow visit (Node.exportNamedDeclaration declaration specifiers).size)
    (hg : (Node.exportNamedDeclaration declaration specifiers).Grammatical) :
    Succeeds (exportNamed visit declaration specifiers) ↔
      (Node.exportNamedDeclaration declaration specifiers).Accepted := by
  have hfits := (grammatical_iff.1 hg).1
  rw [accepted_iff (.exportNamedDeclaration ..)]
  cases declaration with
  | none =>
    simp only [fits, List.all_eq_true] at hfits
    have hnames : Succeeds (specifiers.mapM exportSpecifier) ↔
        ∀ node ∈ specifiers, node.Accepted := by
      rw [succeeds_mapM]
      exact forall₂_congr fun node hm => succeeds_exportSpecifier (hfits node hm)
    simpa [exportNamed, isRefused, children] using hnames
  | some declaration =>
    simp only [fits, Bool.and_eq_true, List.isEmpty_iff] at hfits
    have hs : declaration.standsAlone := by
      cases declaration <;> simp_all [isDefinition, standsAlone, isStatement]
    have hd := hv.child hg (by simp [children]) hs .value
    simp [exportNamed, isRefused, children, hd, hfits.2]

end ScriptForms.Rule
