import ScriptForms.Proofs.Conversion
import ScriptForms.Proofs.Locality

/-!
# Clauses that share a body

A clause of a `switch` without statements shares the body of the next clause that has some. The
clauses that come together like this are a group; a `case` form has one test and one body for each
group. The group that leads to the default clause has none, since the default body is taken anyway.

* `Node.clauseGroups`: the groups of a `switch`, with their tests and statements.
* `Form.caseForm`: a `case` form from its tests and bodies.
* `Rule.clauses_groups`: the converted clauses, group by group.
* `Node.forms_switchStatement_eq_ok`: the form of a `switch`.
-/

namespace ScriptForms

namespace Node

/-! ### The parts of clauses -/

/-- The test of a clause; a default clause has none. -/
def clauseTest? : Node → Option Node
  | .switchCase test _ => test
  | _ => none

/-- The statements of a clause. -/
def clauseStatements : Node → List Node
  | .switchCase _ consequent => consequent
  | _ => []

/-- The tests of clauses in order. -/
def clauseTests (cases : List Node) : List Node := cases.filterMap clauseTest?

@[simp] theorem clauseTests_nil : clauseTests [] = [] := rfl

@[simp] theorem clauseTests_cons_none (statements rest : List Node) :
    clauseTests (.switchCase none statements :: rest) = clauseTests rest := rfl

@[simp] theorem clauseTests_cons_some (test : Node) (statements rest : List Node) :
    clauseTests (.switchCase (some test) statements :: rest) = test :: clauseTests rest := rfl

/-- Clauses that share a body: their tests, and the statements of the last of them. -/
structure ClauseGroup where
  tests : List Node
  statements : List Node

/-- The groups of clauses; `pending` are the tests of clauses without statements right in front of
them. A group that leads to a default clause is left out, and the tests that are left at the end are
a group without statements. -/
def clauseGroups (pending : List Node) : List Node → List ClauseGroup
  | [] => if pending.isEmpty then [] else [⟨pending, []⟩]
  | .switchCase none _ :: rest => clauseGroups [] rest
  | .switchCase (some test) [] :: rest => clauseGroups (pending ++ [test]) rest
  | .switchCase (some test) statements :: rest =>
    ⟨pending ++ [test], statements⟩ :: clauseGroups [] rest
  | _ :: rest => clauseGroups pending rest

/-- The statements of the default clause. Of several default clauses the last one counts. -/
def defaultStatements? : List Node → Option (List Node)
  | [] => none
  | clause :: rest => defaultStatements? rest <|>
      if clause.isDefaultClause then some clause.clauseStatements else none

/-- What is neither a default clause nor a clause with a test is no clause. -/
theorem isClause_eq_false {clause : Node}
    (hdefault : ∀ statements, clause = .switchCase none statements → False)
    (htest : ∀ test statements, clause = .switchCase (some test) statements → False) :
    clause.isClause = false := by
  cases clause with
  | switchCase test statements =>
    cases test with
    | none => exact absurd rfl (hdefault statements)
    | some test => exact absurd rfl (htest test statements)
  | _ => rfl

theorem clauseTest?_eq_none {clause : Node} (h : clause.isClause = false) :
    clause.clauseTest? = none := by
  cases clause with
  | switchCase test statements => cases h
  | _ => rfl

theorem mem_of_mem_clauseGroups {pending cases : List Node} {group : ClauseGroup} {test : Node}
    (hgroup : group ∈ clauseGroups pending cases) (htest : test ∈ group.tests) :
    test ∈ pending ++ clauseTests cases := by
  fun_induction clauseGroups pending cases with
  | case1 pending hempty => cases hgroup
  | case2 pending hempty =>
    rw [List.mem_singleton.1 hgroup] at htest
    exact List.mem_append_left _ htest
  | case3 pending statements rest ih => exact List.mem_append_right _ (by simpa using ih hgroup)
  | case4 pending own rest ih => simpa using ih hgroup
  | case5 pending own statements rest _ ih =>
    rw [clauseTests_cons_some, List.mem_append, List.mem_cons]
    rcases List.mem_cons.1 hgroup with rfl | hgroup
    · rcases List.mem_append.1 htest with htest | htest
      · exact .inl htest
      · exact .inr (.inl (List.mem_singleton.1 htest))
    · exact .inr (.inr (by simpa using ih hgroup))
  | case6 pending clause rest hdefault _ htest' ih =>
    have hnone := clauseTest?_eq_none (isClause_eq_false hdefault htest')
    simpa [clauseTests, List.filterMap_cons, hnone] using ih hgroup

end Node

namespace Form

/-- The list `(case value test body ... default)`. -/
def caseForm (value : Form) (pairs : List (Form × Form)) (default : Form) : Form :=
  .call "case" (value :: pairs.flatMap (fun pair => [pair.1, pair.2]) ++ [default])

/-- A `case` form has one reading. -/
theorem caseForm_inj {value value' default default' : Form} {pairs pairs' : List (Form × Form)}
    (h : caseForm value pairs default = caseForm value' pairs' default') :
    value = value' ∧ pairs = pairs' ∧ default = default' := by
  have hitems : ∀ pairs pairs' : List (Form × Form),
      pairs.flatMap (fun pair => [pair.1, pair.2]) ++ [default] =
        pairs'.flatMap (fun pair => [pair.1, pair.2]) ++ [default'] →
      pairs = pairs' ∧ default = default' := by
    intro pairs
    induction pairs with
    | nil =>
      intro pairs' hsame
      cases pairs' with
      | nil => exact ⟨rfl, by simpa using hsame⟩
      | cons pair' pairs' => simp at hsame
    | cons pair pairs ih =>
      intro pairs' hsame
      cases pairs' with
      | nil => simp at hsame
      | cons pair' pairs' =>
        simp only [List.flatMap_cons, List.cons_append, List.nil_append, List.cons.injEq] at hsame
        obtain ⟨htest, hbody, hrest⟩ := hsame
        obtain ⟨rfl, hdefault⟩ := ih pairs' hrest
        exact ⟨by rw [Prod.ext htest hbody], hdefault⟩
  simp only [caseForm, call, Form.list.injEq, List.cons_append, List.cons.injEq, true_and] at h
  exact ⟨h.1, hitems pairs pairs' h.2⟩

end Form

namespace Rule

open Node

variable {visit : Visit}

/-! ### Converted clauses -/

/-- Children are converted to their forms. -/
abbrev Visit.forms (scope : Scope) : Visit := fun node context => node.forms scope context

/-- The form is the body of a clause with these statements. -/
def IsBody (visit : Visit) (consequent : List Node) (body : Form) : Prop :=
  ∃ forms, statements visit (clauseBody consequent) = .ok forms ∧ body = caseBody forms

/-- The tests and the body of a group, converted. -/
structure IsPair (visit : Visit) (group : ClauseGroup) (pair : Form × Form) : Prop where
  test : ∃ tests, List.Forall₂ (fun test form => visit.one test = .ok form) group.tests tests ∧
    pair.1 = caseTest tests
  body : IsBody visit group.statements pair.2

theorem exists_of_mem_right {α β : Type} {R : α → β → Prop} {as : List α} {bs : List β}
    (h : List.Forall₂ R as bs) {b : β} (hb : b ∈ bs) : ∃ a ∈ as, R a b := by
  induction h with
  | nil => cases hb
  | cons hr _ ih =>
    rcases List.mem_cons.1 hb with rfl | hb
    · exact ⟨_, List.mem_cons_self, hr⟩
    · obtain ⟨a, ha, hrest⟩ := ih hb
      exact ⟨a, List.mem_cons_of_mem _ ha, hrest⟩

theorem isBody_nil (visit : Visit) : IsBody visit [] .nil := ⟨[], rfl, rfl⟩

/-- Converted clauses have a pair for each group and the body of the default clause. -/
theorem clauses_groups {number : Nat} {pending cases : List Node} {tests items : List Form}
    {default : Option Form}
    (hpending : List.Forall₂ (fun test form => visit.one test = .ok form) pending tests)
    (h : clauses visit number tests cases = .ok (items, default)) :
    (∃ pairs, items = pairs.flatMap (fun pair : Form × Form => [pair.1, pair.2]) ∧
      List.Forall₂ (IsPair visit) (clauseGroups pending cases) pairs) ∧
    Option.Rel (IsBody visit) (defaultStatements? cases) default := by
  induction cases generalizing number pending tests items default with
  | nil =>
    cases hpending with
    | nil =>
      cases h
      exact ⟨⟨[], rfl, .nil⟩, .none⟩
    | cons htest htests =>
      cases h
      refine ⟨⟨[(caseTest _, .nil)], rfl, ?_⟩, .none⟩
      exact .cons ⟨⟨_, .cons htest htests, rfl⟩, isBody_nil visit⟩ .nil
  | cons node rest ih =>
    rcases clauses_cons_cases h with ⟨test, form, rfl, hform, hrest⟩ |
      ⟨test, first, others, form, forms, later, rfl, -, hforms, hform, hrest, rfl⟩ |
      ⟨first, others, forms, later, rfl, -, hforms, hrest, rfl⟩
    · have hnow := List.rel_append hpending (List.Forall₂.cons hform .nil)
      obtain ⟨hpairs, hdefault⟩ := ih hnow hrest
      refine ⟨hpairs, ?_⟩
      simpa [defaultStatements?, isDefaultClause] using hdefault
    · have hnow := List.rel_append hpending (List.Forall₂.cons hform .nil)
      obtain ⟨⟨pairs, rfl, hpairs⟩, hdefault⟩ := ih .nil hrest
      refine ⟨⟨(_, _) :: pairs, rfl, ?_⟩, ?_⟩
      · exact .cons ⟨⟨_, hnow, rfl⟩, ⟨forms, hforms, rfl⟩⟩ hpairs
      · simpa [defaultStatements?, isDefaultClause] using hdefault
    · obtain ⟨hpairs, hdefault⟩ := ih .nil hrest
      refine ⟨hpairs, ?_⟩
      -- A later default clause wins over this one.
      have hbody : IsBody visit (first :: others) (caseBody forms) := ⟨forms, hforms, rfl⟩
      simp only [defaultStatements?, isDefaultClause, clauseStatements, if_true]
      generalize defaultStatements? rest = own at hdefault
      cases hdefault with
      | none => exact .some hbody
      | some hlater => exact .some hlater

/-- Before another clause, the statements of a clause end by leaving the `switch`; and a default
clause has statements. -/
theorem clauses_exits {number : Nat} {cases : List Node} {tests items : List Form}
    {default : Option Form} (h : clauses visit number tests cases = .ok (items, default)) :
    ∀ front clause back, cases = front ++ clause :: back →
      clause.isClause ∧ (clause.isDefaultClause → clause.clauseStatements ≠ []) ∧
      (back ≠ [] → clause.clauseStatements ≠ [] → endsWithExit clause.clauseStatements) := by
  induction cases generalizing number tests items default with
  | nil =>
    intro front clause back hsplit
    simp at hsplit
  | cons node rest ih =>
    intro front clause back hsplit
    cases front with
    | nil =>
      obtain ⟨rfl, rfl⟩ := List.cons.inj hsplit
      rcases clauses_cons_cases h with ⟨test, form, rfl, -⟩ |
        ⟨test, first, others, form, forms, later, rfl, hexit, -⟩ |
        ⟨first, others, forms, later, rfl, hexit, -⟩
      · simp [isClause, isDefaultClause, clauseStatements]
      · simpa [isClause, isDefaultClause, clauseStatements] using hexit
      · simpa [isClause, isDefaultClause, clauseStatements] using hexit
    | cons other front =>
      obtain ⟨rfl, rfl⟩ := List.cons.inj hsplit
      rcases clauses_cons_cases h with ⟨test, form, rfl, -, hrest⟩ |
        ⟨test, first, others, form, forms, later, rfl, -, -, -, hrest, -⟩ |
        ⟨first, others, forms, later, rfl, -, -, hrest, -⟩
      · exact ih hrest front clause back rfl
      · exact ih hrest front clause back rfl
      · exact ih hrest front clause back rfl

end Rule

/-- The form of a `switch` has a pair for each of its groups, and the body of the default clause. -/
theorem Node.forms_switchStatement_eq_ok {scope : Scope} {discriminant : Node} {cases : List Node}
    {context : Context} {forms : List Form}
    (h : (Node.switchStatement discriminant cases).forms scope context = .ok forms) :
    ∃ value pairs default, (Rule.Visit.forms scope).one discriminant = .ok value ∧
      forms = [Form.caseForm value pairs (default.getD .nil)] ∧
      Rule.clauses (.forms scope) 1 [] cases =
        .ok (pairs.flatMap (fun pair => [pair.1, pair.2]), default) ∧
      List.Forall₂ (Rule.IsPair (.forms scope)) (clauseGroups [] cases) pairs ∧
      Option.Rel (Rule.IsBody (.forms scope)) (defaultStatements? cases) default := by
  rw [forms_eq, Rule.step] at h
  obtain ⟨form, hform, hforms⟩ := bind_eq_ok.1 h
  obtain ⟨value, hvalue, hform⟩ := bind_eq_ok.1 hform
  obtain ⟨⟨items, default⟩, hclauses, hform⟩ := bind_eq_ok.1 hform
  obtain ⟨⟨pairs, rfl, hpairs⟩, hbodies⟩ := Rule.clauses_groups .nil hclauses
  cases hform
  cases hforms
  exact ⟨value, pairs, default, hvalue, rfl, hclauses, hpairs, hbodies⟩

end ScriptForms
