import ScriptForms.Proofs.Acceptance.Convert
import ScriptForms.Proofs.Switch.Group

/-!
# Tests that are constants

A `case` form does not evaluate its tests: it compares with a constant as it is written, and reads a
list as several of them. The rule for a `switch` converts every test like any other expression, so
the tests of its form are constants iff those of its clauses are.

* `Form.isConstant`, `Node.isConstant`: constants, and the expressions that become one.
* `Form.IsConstantTest`: the test of a number of clauses, made of constants only.
* `Rule.one_isConstant_iff`: an expression becomes a constant iff it is one.
* `Node.forms_constantTests_iff`: which `switch` statements never have a test that is no constant.
-/

namespace ScriptForms

/-! ### Constants -/

/-- The atom of a literal: a number, a string, a truth value or null. -/
def Node.atom? : Node → Option Form
  | .numericLiteral raw => some (.number raw)
  | .stringLiteral value => some (.string value)
  | .booleanLiteral value => some (.boolean value)
  | .nullLiteral => some .nil
  | _ => none

/-- Whether an expression becomes a constant. Besides the literals, the name `nil` does. -/
def Node.isConstant : Node → Bool
  | .identifier name => name = "nil"
  | node => node.atom?.isSome

/-- Whether a form is a number, a string, a truth value, `nil` or a keyword. -/
def Form.isConstant : Form → Bool
  | .number _ | .string _ | .boolean _ | .keyword _ => true
  | .symbol name => name = "nil"
  | _ => false

/-- The test of a number of clauses is made of constants: it is one for a single clause, and a list
of as many for several. -/
def Form.IsConstantTest (count : Nat) (test : Form) : Prop :=
  (count = 1 ∧ test.isConstant) ∨
    (2 ≤ count ∧ ∃ atoms, test = .list atoms ∧ atoms.length = count ∧
      ∀ atom ∈ atoms, atom.isConstant)

namespace Rule

open Node Form

variable {visit : Visit} {scope : Scope}

theorem yields_rest {ε α β : Type} {x : Except ε α} {f : α → Except ε β} {p : β → Prop}
    (h : ∀ a, Yields (f a) p) : Yields (x >>= f) p :=
  yields_bind (q := fun _ => True) (fun _ _ => trivial) fun a _ => h a

/-! ### Rules that yield no constant -/

/-- What the rule yields is no constant. -/
abbrev Varies (x : Except Fault Form) : Prop := Yields x fun form => form.isConstant = false

theorem varies_function (head : String) (name : Option Form) (params : List Node) (body : Node) :
    Varies (function visit head name params body) :=
  yields_rest fun _ => yields_rest fun _ => yields_pure rfl

theorem varies_array (elements : List Node) : Varies (array visit elements) := by
  refine yields_rest fun parts => yields_pure ?_
  unfold ArrayParts.form
  split <;> rfl

theorem varies_object (properties : List Node) : Varies (object visit properties) := by
  refine yields_rest fun parts => yields_pure ?_
  unfold ObjectParts.form
  split <;> rfl

theorem varies_plainMember (node : Node) : Varies (plainMember visit node) := by
  unfold plainMember
  split
  · exact yields_rest fun _ => yields_rest fun _ => yields_pure rfl
  · unfold dotted
    split <;> exact yields_rest fun _ => yields_rest fun _ => yields_pure rfl
  · exact yields_error _

theorem varies_member (node : Node) : Varies (member visit node) := by
  unfold member
  split
  · exact yields_rest fun _ => yields_pure rfl
  · exact varies_plainMember node

theorem varies_assignTo (operator : String) (target : Node) (value : Form) :
    Varies (assignTo visit operator target value) := by
  have hplace : ∀ place, Varies (assignPlace operator place value) :=
    fun place => yields_rest fun _ => yields_pure rfl
  unfold assignTo
  split
  · exact yields_rest hplace
  · exact yields_rest hplace
  · exact yields_rest fun _ => yields_rest fun _ => yields_rest fun _ => yields_pure rfl
  · exact yields_error _

theorem varies_assignment (operator : String) (left right : Node) :
    Varies (assignment visit operator left right) := by
  unfold assignment
  split
  · exact yields_rest fun _ => yields_pure rfl
  · exact yields_check (yields_rest fun value => varies_assignTo operator left value)

theorem varies_unary (operator : String) (argument : Node) :
    Varies (unary visit operator argument) := by
  unfold unary
  split
  · exact yields_rest fun _ => yields_pure rfl
  · split
    · exact yields_rest fun _ => yields_pure rfl
    · exact yields_rest fun _ => yields_rest fun _ => yields_pure rfl
    · exact yields_error _

theorem varies_callExpression (callee : Node) (nodes : List Node) :
    Varies (callExpression visit callee nodes) := by
  simp only [callExpression]
  split
  · exact yields_rest fun _ => yields_rest fun _ => yields_pure rfl
  · unfold call
    split
    · exact yields_rest fun _ => yields_pure rfl
    · exact yields_rest fun _ => yields_rest fun _ => yields_pure rfl

theorem varies_jsxElement (opening : Node) (children : List Node) :
    Varies (jsxElement visit opening children) := by
  unfold jsxElement
  split
  · exact yields_rest fun _ => yields_rest fun _ => yields_rest fun _ => yields_pure rfl
  · exact yields_error _

/-- The expression yields one form, which is a constant iff the expression is. -/
def Matches (node : Node) (forms : List Form) : Prop :=
  ∃ form, forms = [form] ∧ (form.isConstant ↔ node.isConstant)

theorem matches_of_varies {node : Node} (hn : node.isConstant = false) {x : Except Fault Form}
    (hx : Varies x) : Yields (do return [← x]) (Matches node) :=
  yields_bind hx fun form hform => yields_pure ⟨form, rfl, by simp [hform, hn]⟩

/-- One step takes an expression to a constant iff it is one: every compound expression becomes a
list, a vector or a tagged form. -/
theorem step_matches (scope : Scope) (visit : Visit) (node : Node) (he : node.isExpression) :
    Yields (step scope visit node .value) (Matches node) := by
  cases node with
  | unsupported kind text => exact yields_error _
  | identifier name =>
    -- As a value, a name is not qualified.
    exact yields_ok ⟨.symbol name, rfl, Iff.rfl⟩
  | nullLiteral | booleanLiteral value | numericLiteral raw | stringLiteral value =>
    exact yields_ok ⟨_, rfl, iff_of_true rfl rfl⟩
  | thisExpression | regExpLiteral pattern flags =>
    exact yields_ok ⟨_, rfl, iff_of_false Bool.false_ne_true Bool.false_ne_true⟩
  | templateLiteral texts expressions =>
    exact matches_of_varies rfl (yields_rest fun _ => yields_pure rfl)
  | arrayExpression elements => exact matches_of_varies rfl (varies_array elements)
  | objectExpression properties => exact matches_of_varies rfl (varies_object properties)
  | functionExpression id params body =>
    exact yields_rest fun name => matches_of_varies rfl (varies_function _ _ _ _)
  | arrowFunctionExpression params body => exact matches_of_varies rfl (varies_function _ _ _ _)
  | unaryExpression operator argument =>
    exact matches_of_varies rfl (varies_unary operator argument)
  | binaryExpression operator left right | logicalExpression operator left right =>
    exact yields_rest fun _ => yields_rest fun _ =>
      matches_of_varies (x := pure (.call (operatorName operator) [_, _])) rfl (yields_pure rfl)
  | assignmentExpression operator left right =>
    exact matches_of_varies rfl (varies_assignment operator left right)
  | conditionalExpression test consequent alternate =>
    exact yields_rest fun _ => yields_rest fun _ => yields_rest fun _ =>
      matches_of_varies (x := pure (.call "if" [_, _, _])) rfl (yields_pure rfl)
  | callExpression callee arguments => exact matches_of_varies rfl (varies_callExpression _ _)
  | newExpression callee arguments =>
    exact matches_of_varies rfl (yields_rest fun _ => yields_rest fun _ => yields_pure rfl)
  | memberExpression object property computed => exact matches_of_varies rfl (varies_member _)
  | jsxElement opening items => exact matches_of_varies rfl (varies_jsxElement _ _)
  | _ => cases he

/-- An expression becomes a constant iff it is one. -/
theorem one_isConstant_iff {node : Node} (he : node.isExpression) {form : Form}
    (h : (Visit.forms scope).one node = .ok form) : form.isConstant ↔ node.isConstant := by
  obtain ⟨forms, hforms, hform⟩ := bind_eq_ok.1 h
  change node.forms scope .value = .ok forms at hforms
  rw [forms_eq] at hforms
  obtain ⟨only, rfl, hiff⟩ := step_matches scope _ node he forms hforms
  cases hform
  exact hiff

/-! ### Tests of groups -/

/-- The test that is made of the tests of clauses has constants only iff they are constants. -/
theorem isConstantTest_caseTest {tests : List Form} (hne : tests ≠ []) :
    IsConstantTest tests.length (caseTest tests) ↔ ∀ test ∈ tests, test.isConstant := by
  match tests, hne with
  | [test], _ => simp [IsConstantTest, caseTest]
  | first :: second :: others, _ => simp [IsConstantTest, caseTest]

theorem tests_ne_nil {pending cases : List Node} {group : ClauseGroup}
    (h : group ∈ clauseGroups pending cases) : group.tests ≠ [] := by
  fun_induction clauseGroups pending cases with
  | case1 pending hempty => cases h
  | case2 pending hempty =>
    rw [List.mem_singleton.1 h]
    simpa using hempty
  | case3 pending statements rest ih | case4 pending own rest ih
  | case6 pending clause rest _ _ _ ih => exact ih h
  | case5 pending own statements rest _ ih =>
    rcases List.mem_cons.1 h with rfl | h
    · exact List.append_ne_nil_of_right_ne_nil _ (List.cons_ne_nil _ _)
    · exact ih h

theorem forall_mem_iff_of_forall₂ {α β : Type} {p : α → Prop} {q : β → Prop} {as : List α}
    {bs : List β} (h : List.Forall₂ (fun a b => q b ↔ p a) as bs) :
    (∀ b ∈ bs, q b) ↔ ∀ a ∈ as, p a := by
  induction h with
  | nil => simp
  | cons hab _ ih => rw [List.forall_mem_cons, List.forall_mem_cons, hab, ih]

theorem IsPair.isConstantTest_iff {group : ClauseGroup} {pair : Form × Form}
    (h : IsPair (.forms scope) group pair) (hne : group.tests ≠ [])
    (he : ∀ test ∈ group.tests, test.isExpression) :
    IsConstantTest group.tests.length pair.1 ↔ ∀ test ∈ group.tests, test.isConstant := by
  obtain ⟨tests, htests, hpair⟩ := h.test
  have hlength := htests.length_eq
  have hconstant : List.Forall₂ (fun test form => form.isConstant ↔ test.isConstant)
      group.tests tests :=
    ((List.forall₂_and_left _ _).2 ⟨he, htests⟩).imp fun _ _ h => one_isConstant_iff h.1 h.2
  have hforms : tests ≠ [] := by
    rintro rfl
    exact hne (List.length_eq_zero_iff.1 hlength)
  rw [hpair, hlength, isConstantTest_caseTest hforms]
  exact forall_mem_iff_of_forall₂ hconstant

end Rule

namespace Node

open Rule

/-- The forms of a `switch` are one `case` form, in which the test of every group of clauses is made
of constants. -/
def HasConstantTests (cases : List Node) (forms : List Form) : Prop :=
  ∃ value pairs default, forms = [Form.caseForm value pairs default] ∧
    List.Forall₂ (fun group pair => Form.IsConstantTest group.tests.length pair.1)
      (clauseGroups [] cases) pairs

theorem isExpression_of_mem_clauseTests {discriminant test : Node} {cases : List Node}
    (hg : (Node.switchStatement discriminant cases).Grammatical) (h : test ∈ clauseTests cases) :
    test.isExpression := by
  obtain ⟨clause, hclause, htest⟩ := List.mem_filterMap.1 h
  have hfits := (grammatical_iff.1 (hg.child (List.mem_cons_of_mem _ hclause))).1
  cases clause with
  | switchCase own consequent =>
    cases htest
    simp only [fits, Option.all_some, Bool.and_eq_true] at hfits
    exact hfits.1
  | _ => cases htest

variable {scope : Scope} {discriminant : Node} {cases : List Node} {context : Context}
  {forms : List Form}

/-- The test of each group of a `switch` that has a form is made of constants iff the tests of its
clauses are constants. -/
theorem forms_groupTests (hg : (Node.switchStatement discriminant cases).Grammatical)
    (h : (Node.switchStatement discriminant cases).forms scope context = .ok forms) :
    ∃ value pairs default, forms = [Form.caseForm value pairs default] ∧
      List.Forall₂ (fun group pair => Form.IsConstantTest group.tests.length pair.1 ↔
        ∀ test ∈ group.tests, test.isConstant) (clauseGroups [] cases) pairs := by
  obtain ⟨value, pairs, default, -, rfl, -, hpairs, -⟩ := forms_switchStatement_eq_ok h
  refine ⟨value, pairs, default.getD .nil, rfl, ?_⟩
  have hgroups : ∀ group ∈ clauseGroups [] cases,
      group.tests ≠ [] ∧ ∀ test ∈ group.tests, test.isExpression := by
    refine fun group hgroup => ⟨tests_ne_nil hgroup, fun test htest => ?_⟩
    exact isExpression_of_mem_clauseTests hg (by simpa using mem_of_mem_clauseGroups hgroup htest)
  refine ((List.forall₂_and_left _ _).2 ⟨hgroups, hpairs⟩).imp fun group pair h => ?_
  exact h.2.isConstantTest_iff h.1.1 h.1.2

theorem hasConstantTests_iff (hg : (Node.switchStatement discriminant cases).Grammatical)
    (h : (Node.switchStatement discriminant cases).forms scope context = .ok forms) :
    HasConstantTests cases forms ↔
      ∀ group ∈ clauseGroups [] cases, ∀ test ∈ group.tests, test.isConstant := by
  obtain ⟨value, pairs, default, rfl, hpairs⟩ := forms_groupTests hg h
  constructor
  · rintro ⟨value', pairs', default', heq, htests⟩ group hgroup
    obtain ⟨-, rfl, -⟩ := Form.caseForm_inj (List.singleton_injective heq)
    have hconstant : List.Forall₂ (fun group _ => ∀ test ∈ group.tests, test.isConstant)
        (clauseGroups [] cases) pairs := hpairs.mp (fun _ _ hiff => hiff.1) htests
    obtain ⟨pair, -, hgroup⟩ := exists_of_mem_right hconstant.flip hgroup
    exact hgroup
  · intro hconstant
    refine ⟨value, pairs, default, rfl, ?_⟩
    exact ((List.forall₂_and_left _ _).2 ⟨hconstant, hpairs⟩).imp fun _ _ h => h.2.2 h.1

/-- A `switch` never has a test that is not made of constants iff the tests of its clauses are
constants or it holds a refused construct: a test is no reason to refuse a `switch`. -/
theorem forms_constantTests_iff (scope : Scope) (discriminant : Node) (cases : List Node)
    (context : Context) (hg : (Node.switchStatement discriminant cases).Grammatical) :
    ((∀ forms, (Node.switchStatement discriminant cases).forms scope context = .ok forms →
        HasConstantTests cases forms) ↔
      (∀ group ∈ clauseGroups [] cases, ∀ test ∈ group.tests, test.isConstant) ∨
        ∃ m ∈ (Node.switchStatement discriminant cases).subtrees, m.isRefused) ∧
    ∀ forms, (Node.switchStatement discriminant cases).forms scope context = .ok forms →
      ∃ value pairs default, forms = [Form.caseForm value pairs default] ∧
        List.Forall₂ (fun group pair => Form.IsConstantTest group.tests.length pair.1 ↔
          ∀ test ∈ group.tests, test.isConstant) (clauseGroups [] cases) pairs := by
  refine ⟨?_, fun forms => forms_groupTests hg⟩
  have hsucceeds : Succeeds ((Node.switchStatement discriminant cases).forms scope context) ↔
      (Node.switchStatement discriminant cases).Accepted :=
    convert_decides scope _ _ (Nat.lt_succ_self _) hg rfl context
  constructor
  · intro htests
    by_cases haccepted : (Node.switchStatement discriminant cases).Accepted
    · obtain ⟨forms, hforms⟩ := hsucceeds.2 haccepted
      exact .inl ((hasConstantTests_iff hg hforms).1 (htests forms hforms))
    · right
      simpa [Accepted] using haccepted
  · rintro (hconstant | ⟨m, hm, hrefused⟩) forms hforms
    · exact (hasConstantTests_iff hg hforms).2 hconstant
    · exact absurd hrefused (hsucceeds.1 ⟨forms, hforms⟩ m hm)

/-- The clause `case y: z;`. -/
def nameClause : Node :=
  .switchCase (some (.identifier "y")) [.expressionStatement (.identifier "z") []]

theorem grammatical_nameClause :
    (Node.switchStatement (.identifier "x") [nameClause]).Grammatical := by
  unfold Grammatical
  decide

/-- A name as a test is no reason to refuse a `switch`. -/
theorem forms_nameClause :
    (Node.switchStatement (.identifier "x") [nameClause]).Grammatical ∧
    ¬∀ forms, (Node.switchStatement (.identifier "x") [nameClause]).forms NameSet.host.scope {} =
        .ok forms → HasConstantTests [nameClause] forms := by
  refine ⟨grammatical_nameClause, ?_⟩
  rw [(forms_constantTests_iff _ _ _ _ grammatical_nameClause).1]
  decide

/-- A `switch` on the name `y` is converted to `(case x y z nil)`, which compares with the symbol
and not with the value of `y`. -/
theorem forms_nameClause_kept :
    ¬∀ (scope : Scope) (discriminant : Node) (cases : List Node) (context : Context)
      (forms : List Form), (Node.switchStatement discriminant cases).Grammatical →
      (Node.switchStatement discriminant cases).forms scope context = .ok forms →
      HasConstantTests cases forms := by
  intro h
  have hg := grammatical_nameClause
  have hforms : (Node.switchStatement (.identifier "x") [nameClause]).forms NameSet.host.scope {} =
      .ok [Form.caseForm (.symbol "x") [(.symbol "y", .symbol "z")] .nil] := rfl
  have htests := h NameSet.host.scope (.identifier "x") [nameClause] {} _ hg hforms
  exact absurd ((hasConstantTests_iff hg hforms).1 htests) (by decide)

end Node

end ScriptForms
