import ScriptForms.Proofs.Switch.Constant
import ScriptForms.Proofs.Switch.Reach

/-!
# The body that a value chooses

A `case` form takes the body of the pair whose test names the value, or else the default body. For
tests that are different literals this is the body of the clause that the `switch` gets to, wherever
the default clause stands and however many clauses share a body; and the statements of that clause
leave the `switch` before any others are reached.

* `Form.Chooses`: the body that a `case` form takes.
* `Rule.IsReachedBody`: the body for the clause that is reached.
* `Node.forms_switchStatement`: the form of a `switch` takes the body of the clause that is reached.
-/

namespace ScriptForms

/-! ### Literals -/

namespace Form

/-- The literal that a form is written for. -/
def literalNode? : Form → Option Node
  | .number raw => some (.numericLiteral raw)
  | .string value => some (.stringLiteral value)
  | .boolean value => some (.booleanLiteral value)
  | .symbol "nil" => some .nullLiteral
  | _ => none

theorem literalNode?_of_atom? {node : Node} {form : Form} (h : node.atom? = some form) :
    form.literalNode? = some node := by
  unfold Node.atom? at h
  split at h <;> cases h <;> rfl

theorem isConstant_of_atom? {node : Node} {form : Form} (h : node.atom? = some form) :
    form.isConstant := by
  unfold Node.atom? at h
  split at h <;> cases h <;> rfl

theorem ne_list_of_isConstant {form : Form} (h : form.isConstant) (children : List Form) :
    form ≠ .list children := by
  rintro rfl
  cases h

/-! ### Tests and bodies of `case` forms -/

/-- The test of a `case` form is the constant, or a list that holds it. -/
def Names (test constant : Form) : Prop :=
  test = constant ∨ ∃ tests, test = .list tests ∧ constant ∈ tests

/-- The pairs whose tests are named have this body; if there are none, the default body is it. -/
def Chooses (named : Form → Prop) (pairs : List (Form × Form)) (default body : Form) : Prop :=
  (∀ pair ∈ pairs, named pair.1 → pair.2 = body) ∧
    ((∀ pair ∈ pairs, ¬named pair.1) → default = body)

/-- The test of several clauses names exactly their constants. -/
theorem names_caseTest {tests : List Form} {constant : Form} (hconstant : constant.isConstant)
    (h : ∀ test ∈ tests, test.isConstant) :
    (Rule.caseTest tests).Names constant ↔ constant ∈ tests := by
  unfold Rule.caseTest
  split
  · rename_i test
    rw [List.mem_singleton]
    constructor
    · rintro (heq | ⟨children, heq, -⟩)
      · exact heq.symm
      · exact absurd heq (ne_list_of_isConstant (h test List.mem_cons_self) children)
    · exact fun heq => .inl heq.symm
  · constructor
    · rintro (heq | ⟨children, heq, hmem⟩)
      · exact absurd heq.symm (ne_list_of_isConstant hconstant tests)
      · cases heq
        exact hmem
    · exact fun hmem => .inr ⟨tests, rfl, hmem⟩

end Form

namespace Rule

open Node

variable {scope : Scope}

theorem one_literal (scope : Scope) {node : Node} {form : Form} (h : node.atom? = some form) :
    (Visit.forms scope).one node = .ok form := by
  unfold Node.atom? at h
  split at h <;> cases h <;> rfl

/-- Converted literals are their forms. -/
theorem literals_of_forall₂ {nodes : List Node} {forms : List Form}
    (hliteral : ∀ node ∈ nodes, node.atom?.isSome)
    (h : List.Forall₂ (fun node form => (Visit.forms scope).one node = .ok form) nodes forms) :
    List.Forall₂ (fun node form => node.atom? = some form) nodes forms := by
  induction h with
  | nil => exact .nil
  | cons hform _ ih =>
    rw [List.forall_mem_cons] at hliteral
    obtain ⟨own, hown⟩ := Option.isSome_iff_exists.1 hliteral.1
    rw [one_literal scope hown] at hform
    exact .cons (hown.trans (congrArg some (Except.ok.inj hform))) (ih hliteral.2)

theorem IsBody.unique {visit : Visit} {consequent : List Node} {body other : Form}
    (h : IsBody visit consequent body) (h' : IsBody visit consequent other) : body = other := by
  obtain ⟨forms, hforms, rfl⟩ := h
  obtain ⟨forms', hforms', rfl⟩ := h'
  rw [Except.ok.inj (hforms.symm.trans hforms')]

/-- The test of a group of literals names the form of a literal iff the literal is in the group. -/
theorem IsPair.names_iff {group : ClauseGroup} {pair : Form × Form} {literal : Node} {form : Form}
    (h : IsPair (.forms scope) group pair)
    (hliteral : ∀ test ∈ group.tests, test.atom?.isSome) (hform : literal.atom? = some form) :
    pair.1.Names form ↔ literal ∈ group.tests := by
  obtain ⟨tests, htests, heq⟩ := h.test
  have hliterals := literals_of_forall₂ hliteral htests
  have hconstants : ∀ test ∈ tests, test.isConstant := by
    intro test htest
    obtain ⟨node, -, hnode⟩ := exists_of_mem_right hliterals htest
    exact Form.isConstant_of_atom? hnode
  rw [heq, Form.names_caseTest (Form.isConstant_of_atom? hform) hconstants]
  constructor
  · intro hmem
    obtain ⟨node, hnode, hsame⟩ := exists_of_mem_right hliterals hmem
    -- A form is written for one literal only.
    have heq := (Form.literalNode?_of_atom? hsame).symm.trans (Form.literalNode?_of_atom? hform)
    exact Option.some.inj heq ▸ hnode
  · intro hmem
    obtain ⟨other, hother, hsame⟩ := exists_of_mem_right hliterals.flip hmem
    exact Option.some.inj (hsame.symm.trans hform) ▸ hother

/-- The value, given by the literals that it equals, has its form in the test. -/
def IsNamed (visit : Visit) (equals : Node → Bool) (tests : List Node) (test : Form) : Prop :=
  ∃ literal ∈ tests, equals literal ∧ ∃ form, visit.one literal = .ok form ∧ test.Names form

theorem IsPair.isNamed_iff {group : ClauseGroup} {pair : Form × Form} {tests : List Node}
    {equals : Node → Bool} (h : IsPair (.forms scope) group pair)
    (hliteral : ∀ test ∈ tests, test.atom?.isSome) (hgroup : ∀ test ∈ group.tests, test ∈ tests) :
    IsNamed (.forms scope) equals tests pair.1 ↔ group.tests.any equals := by
  have hnames : ∀ literal ∈ tests, ∀ form, (Visit.forms scope).one literal = .ok form →
      (pair.1.Names form ↔ literal ∈ group.tests) := by
    intro literal hmem form hform
    obtain ⟨own, hown⟩ := Option.isSome_iff_exists.1 (hliteral literal hmem)
    rw [one_literal scope hown] at hform
    rw [← Except.ok.inj hform]
    exact h.names_iff (fun test htest => hliteral test (hgroup test htest)) hown
  rw [List.any_eq_true]
  constructor
  · rintro ⟨literal, hmem, hequals, form, hform, hnamed⟩
    exact ⟨literal, (hnames literal hmem form hform).1 hnamed, hequals⟩
  · rintro ⟨literal, hmem, hequals⟩
    obtain ⟨form, hform⟩ := Option.isSome_iff_exists.1 (hliteral literal (hgroup literal hmem))
    have hone := one_literal scope hform
    exact ⟨literal, hgroup literal hmem, hequals, form, hone,
      (hnames literal (hgroup literal hmem) form hone).2 hmem⟩

variable {visit : Visit} {groups : List ClauseGroup} {pairs : List (Form × Form)}
  {cases target : List Node} {default : Option Form} {equals : Node → Bool} {named : Form → Prop}

theorem IsBody.getD {statements? : Option (List Node)}
    (h : Option.Rel (IsBody visit) statements? default) :
    IsBody visit (statements?.getD []) (default.getD .nil) := by
  cases h with
  | none => exact isBody_nil visit
  | some h => exact h

/-- Pairs choose the body of the statements that their groups choose. -/
theorem exists_chosen {statements? : Option (List Node)}
    (hpairs : List.Forall₂ (IsPair visit) groups pairs)
    (hdefault : Option.Rel (IsBody visit) statements? default)
    (hnamed : ∀ group ∈ groups, ∀ pair, IsPair visit group pair →
      (named pair.1 ↔ group.tests.any equals))
    (hgroups : ∀ group ∈ groups, group.tests.any equals → group.statements = target)
    (hothers : (∀ group ∈ groups, group.tests.any equals = false) → statements?.getD [] = target) :
    ∃ body, Form.Chooses named pairs (default.getD .nil) body ∧ IsBody visit target body := by
  have hbody : ∀ pair ∈ pairs, named pair.1 → IsBody visit target pair.2 := by
    intro pair hpair hown
    obtain ⟨group, hgroup, hpair⟩ := exists_of_mem_right hpairs hpair
    rw [← hgroups group hgroup ((hnamed group hgroup pair hpair).1 hown)]
    exact hpair.body
  by_cases hsome : ∃ pair ∈ pairs, named pair.1
  · obtain ⟨pair, hpair, hown⟩ := hsome
    refine ⟨pair.2, ⟨fun other hother hnamed' => ?_, fun hnone => ?_⟩, hbody pair hpair hown⟩
    · exact (hbody other hother hnamed').unique (hbody pair hpair hown)
    · exact absurd hown (hnone pair hpair)
  · refine ⟨default.getD .nil, ⟨fun pair hpair hown => ?_, fun _ => rfl⟩, ?_⟩
    · exact absurd ⟨pair, hpair, hown⟩ hsome
    · rw [← hothers fun group hgroup => ?_]
      · exact IsBody.getD hdefault
      · obtain ⟨pair, hpair, hpair'⟩ := exists_of_mem_right hpairs.flip hgroup
        rw [← Bool.not_eq_true, ← hnamed group hgroup pair hpair']
        exact fun hown => hsome ⟨pair, hpair, hown⟩

theorem hasOneDefault_of_clauses {number : Nat} {items : List Form}
    (h : clauses visit number [] cases = .ok (items, default))
    (hdefault : cases.countP isDefaultClause ≤ 1) : HasOneDefault cases where
  clauses := fun clause hclause => by
    obtain ⟨front, back, hsplit⟩ := List.append_of_mem hclause
    exact (clauses_exits h front clause back hsplit).1
  statements := fun clause hclause => by
    obtain ⟨front, back, hsplit⟩ := List.append_of_mem hclause
    exact (clauses_exits h front clause back hsplit).2.1
  single := hdefault

/-- The body for a `switch` that runs the statements from the first of these clauses on: that clause
is converted without the `break` at its end, and control does not go on to the statements of a later
one. If there is no clause, nothing is done. -/
def IsReachedBody (visit : Visit) : List Node → Form → Prop
  | [], body => body = .nil
  | clause :: later, body =>
    (∃ trimmed forms, IsTrimmed clause.clauseStatements trimmed ∧
      statements visit trimmed = .ok forms ∧
      body = if forms = [] then .nil else .sequence forms) ∧
    ((∃ other ∈ later, other.clauseStatements ≠ []) →
      completesAll clause.clauseStatements = false)

theorem IsBody.isReachedBody {number : Nat} {items : List Form} {body : Form}
    (hclauses : clauses visit number [] cases = .ok (items, default))
    (h : IsBody visit (firstStatements (entered equals cases)) body) :
    IsReachedBody visit (reached equals cases) body := by
  rw [firstStatements, ← reached] at h
  cases hreached : reached equals cases with
  | nil =>
    rw [hreached] at h
    exact h.unique (isBody_nil visit)
  | cons clause later =>
    rw [hreached] at h
    obtain ⟨forms, hforms, rfl⟩ := h
    obtain ⟨hstatements, front, hsplit⟩ := reached_eq_cons hreached
    refine ⟨⟨_, forms, isTrimmed_clauseBody _, hforms, ?_⟩, ?_⟩
    · simp [caseBody]
    · rintro ⟨other, hother, -⟩
      have hexit := (clauses_exits hclauses front clause later hsplit.symm).2.2
        (List.ne_nil_of_mem hother) hstatements
      exact completesAll_of_endsWithExit (fun node _ => completes_of_isExit) hexit

end Rule

namespace Node

open Rule

/-- The form of a `switch` over different literals takes the body of the clause that is reached. -/
theorem forms_switchStatement (scope : Scope) (discriminant : Node) (cases : List Node)
    (context : Context) (forms : List Form)
    (hliteral : ∀ test ∈ clauseTests cases, test.atom?.isSome)
    (hdistinct : (clauseTests cases).Nodup) (hdefault : cases.countP isDefaultClause ≤ 1)
    (h : (Node.switchStatement discriminant cases).forms scope context = .ok forms) :
    ∃ value pairs default,
      (Visit.forms scope).one discriminant = .ok value ∧
      forms = [Form.caseForm value pairs default] ∧
      ∀ equals : Node → Bool,
        (∀ s ∈ clauseTests cases, ∀ t ∈ clauseTests cases, equals s → equals t → s = t) →
        ∃ body,
          Form.Chooses (IsNamed (.forms scope) equals (clauseTests cases)) pairs default body ∧
          IsReachedBody (.forms scope) (reached equals cases) body := by
  obtain ⟨value, pairs, default, hvalue, rfl, hclauses, hpairs, hbodies⟩ :=
    forms_switchStatement_eq_ok h
  refine ⟨value, pairs, default.getD .nil, hvalue, rfl, fun equals hequals => ?_⟩
  have hone := hasOneDefault_of_clauses hclauses hdefault
  obtain ⟨hgroups, hothers⟩ := groups_reached hone (countP_le_one hdistinct hequals)
  have hnamed : ∀ group ∈ clauseGroups [] cases, ∀ pair, IsPair (.forms scope) group pair →
      (IsNamed (.forms scope) equals (clauseTests cases) pair.1 ↔ group.tests.any equals) := by
    intro group hgroup pair hpair
    refine hpair.isNamed_iff hliteral fun test htest => ?_
    simpa using mem_of_mem_clauseGroups hgroup htest
  obtain ⟨body, hchooses, hbody⟩ := exists_chosen hpairs hbodies hnamed hgroups hothers
  exact ⟨body, hchooses, hbody.isReachedBody hclauses⟩

/-- The clauses `case 1: case 2: a; break; case "s": default: { b; break; } case true: return c;
case null:`. -/
def mixedClauses : List Node :=
  [.switchCase (some (.numericLiteral "1")) [],
    .switchCase (some (.numericLiteral "2"))
      [.expressionStatement (.identifier "a") [], .breakStatement],
    .switchCase (some (.stringLiteral "s")) [],
    .switchCase none
      [.blockStatement [.expressionStatement (.identifier "b") [], .breakStatement]],
    .switchCase (some (.booleanLiteral true)) [.returnStatement (some (.identifier "c"))],
    .switchCase (some .nullLiteral) []]

/-- The tests and bodies for `mixedClauses`, but for the default body. -/
def mixedPairs : List (Form × Form) :=
  [(.list [.number "1", .number "2"], .symbol "a"), (.boolean true, .symbol "c"), (.nil, .nil)]

/-- The form of a `switch` over `mixedClauses` takes the body of the clause that is reached. The
text `"s"`, which leads to the default clause, is no test of it. -/
theorem forms_mixedClauses :
    (clauseTests mixedClauses).Nodup ∧
    (Node.switchStatement (.identifier "x") mixedClauses).forms NameSet.host.scope {} =
      .ok [Form.caseForm (.symbol "x") mixedPairs (.symbol "b")] ∧
    ∀ equals : Node → Bool,
      (∀ s ∈ clauseTests mixedClauses, ∀ t ∈ clauseTests mixedClauses,
        equals s → equals t → s = t) →
      ∃ body,
        Form.Chooses (IsNamed (.forms NameSet.host.scope) equals (clauseTests mixedClauses))
          mixedPairs (.symbol "b") body ∧
        IsReachedBody (.forms NameSet.host.scope) (reached equals mixedClauses) body := by
  have hdistinct : (clauseTests mixedClauses).Nodup := by simp [mixedClauses]
  have hliteral : ∀ test ∈ clauseTests mixedClauses, test.atom?.isSome := by
    simp [mixedClauses, atom?]
  have hforms : (Node.switchStatement (.identifier "x") mixedClauses).forms NameSet.host.scope {} =
      .ok [Form.caseForm (.symbol "x") mixedPairs (.symbol "b")] := rfl
  obtain ⟨value, pairs, default, -, heq, hall⟩ :=
    forms_switchStatement NameSet.host.scope _ _ _ _ hliteral hdistinct (by decide) hforms
  obtain ⟨-, rfl, rfl⟩ := Form.caseForm_inj (List.singleton_injective heq)
  exact ⟨hdistinct, hforms, hall⟩

end Node

end ScriptForms
