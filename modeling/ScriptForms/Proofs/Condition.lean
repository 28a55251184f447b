import ScriptForms.Proofs.Switch.Group

/-!
# Chains of conditions

A chain of `if` / `else if` / `else` statements becomes one form: `when`, `if` or `cond`. Whatever
the tests evaluate to, and whatever else their evaluation does, the form evaluates the tests that
the statement evaluates, in the same order, and goes on with the body of the branch that the
statement goes on with.

* `Node.IsChain`, `Node.taken`: the branches of a nested statement, and the one that it takes.
* `Form.conditional`, `Form.select`: the form of a chain, and what a conditional form goes on with.
* `firstHolding`: the first test that holds, which both of them look for.
* `Node.forms_ifStatement`: the form of a chain and what it goes on with.
-/

namespace ScriptForms

open Node

/-! ### The first test that holds -/

section FirstHolding

variable {α β γ δ σ : Type}

/-- What belongs to the first test that holds, and the state after the tests up to it. -/
def firstHolding (test : α → σ → Bool × σ) : List (α × β) → σ → Option β × σ
  | [], s => (none, s)
  | (a, b) :: rest, s =>
    if (test a s).1 then (some b, (test a s).2) else firstHolding test rest (test a s).2

/-- Tests that are evaluated alike hold alike. -/
theorem firstHolding_rel {test : α → σ → Bool × σ} {test' : γ → σ → Bool × σ}
    {r : β → δ → Prop} {chain : List (α × β)} {clauses : List (γ × δ)}
    (h : List.Forall₂ (fun a c => test a.1 = test' c.1 ∧ r a.2 c.2) chain clauses) (s : σ) :
    Option.Rel r (firstHolding test chain s).1 (firstHolding test' clauses s).1 ∧
      (firstHolding test chain s).2 = (firstHolding test' clauses s).2 := by
  induction h generalizing s with
  | nil => exact ⟨.none, rfl⟩
  | @cons a c chain clauses hac h ih =>
    rw [firstHolding, firstHolding, hac.1]
    split
    · exact ⟨.some hac.2, rfl⟩
    · exact ih _

end FirstHolding

/-! ### Statements -/

namespace Node

/-- Whether a node is an `if` statement. -/
def isIf : Node → Bool
  | .ifStatement .. => true
  | _ => false

/-- A nested statement is a chain of tests with their branches, and of what stands behind the last
`else`. -/
inductive IsChain : Node → List (Node × Node) → Option Node → Prop
  | last (test consequent : Node) :
      IsChain (.ifStatement test consequent none) [(test, consequent)] none
  | next (test consequent : Node) {alternate : Node} {chain : List (Node × Node)}
      {other : Option Node} (h : IsChain alternate chain other) :
      IsChain (.ifStatement test consequent (some alternate)) ((test, consequent) :: chain) other
  | other {node : Node} (h : ¬node.isIf) : IsChain node [] (some node)

/-- The branches of a chain, with those behind its tests first. -/
def chainBranches (chain : List (Node × Node)) (other : Option Node) : List Branch :=
  chain.map (fun branch => ⟨some branch.1, branch.2⟩) ++ other.toList.map (⟨none, ·⟩)

/-- The last branch of a chain has a test unless an `else` closes the chain. -/
theorem getLast?_chainBranches {chain : List (Node × Node)} (hne : chain ≠ [])
    (other : Option Node) :
    (chainBranches chain other).getLast?.any (·.test.isSome) = other.isNone := by
  cases other with
  | none => simp [chainBranches, List.getLast?_map, List.getLast?_eq_some_getLast hne]
  | some other => simp [chainBranches]

section Taken

variable {σ : Type} (truth : Node → σ → Bool × σ)

mutual

/-- The branch that a statement takes, and the state after the tests that it evaluates. -/
def taken : Node → σ → Option Node × σ
  | .ifStatement test consequent alternate, s =>
    if (truth test s).1 then (some consequent, (truth test s).2)
    else takenOr alternate (truth test s).2
  | node, s => (some node, s)

/-- The branch that an `else` part takes. -/
def takenOr : Option Node → σ → Option Node × σ
  | none, s => (none, s)
  | some node, s => taken node s

end

end Taken

theorem exists_isChain (node : Node) : ∃ chain other, node.IsChain chain other := by
  induction node using induction_on_children with
  | h node ih =>
    by_cases hif : node.isIf
    · cases node with
      | ifStatement test consequent alternate =>
        cases alternate with
        | none => exact ⟨_, _, .last test consequent⟩
        | some alternate =>
          obtain ⟨chain, other, h⟩ := ih alternate (by simp [children])
          exact ⟨_, _, .next test consequent h⟩
      | _ => cases hif
    · exact ⟨_, _, .other hif⟩

variable {node : Node} {chain : List (Node × Node)} {other : Option Node}

theorem IsChain.branches_eq (h : node.IsChain chain other) :
    node.branches = chainBranches chain other := by
  induction h with
  | last test consequent => rfl
  | next test consequent h ih => rw [branches, branchesOr, ih]; rfl
  | @other node h =>
    cases node with
    | ifStatement test consequent alternate => exact absurd rfl h
    | _ => rfl

theorem IsChain.not_isIf (h : node.IsChain chain other) : ∀ m ∈ other, ¬m.isIf := by
  induction h with
  | last test consequent => simp
  | next test consequent h ih => exact ih
  | other h => simpa using h

theorem IsChain.ne_nil (h : node.IsChain chain other) (hif : node.isIf) : chain ≠ [] := by
  cases h with
  | other h => exact absurd hif h
  | _ => simp

/-- A statement takes the branch of the first test that holds, or else what stands behind the last
`else`. -/
theorem IsChain.taken_eq {σ : Type} (h : node.IsChain chain other) (truth : Node → σ → Bool × σ)
    (s : σ) : node.taken truth s =
      ((firstHolding truth chain s).1.or other, (firstHolding truth chain s).2) := by
  induction h generalizing s with
  | last test consequent =>
    rw [taken, firstHolding]
    split <;> rfl
  | next test consequent h ih =>
    rw [taken, firstHolding, takenOr, ih]
    split <;> rfl
  | @other node h =>
    cases node with
    | ifStatement test consequent alternate => exact absurd rfl h
    | _ => rfl

end Node

/-! ### Conditional forms -/

namespace Form

/-- How forms are tested. A keyword holds, and to test it does nothing. -/
structure Evaluation (σ : Type) where
  test : Form → σ → Bool × σ
  test_keyword (name : String) (s : σ) : test (.keyword name) s = (true, s)

section Select

variable {σ : Type} (e : Evaluation σ)

/-- What `cond` goes on with, given its tests and bodies in turn. -/
def selectClause : List Form → σ → List Form × σ
  | test :: body :: clauses, s =>
    if (e.test test s).1 then ([body], (e.test test s).2)
    else selectClause clauses (e.test test s).2
  | _, s => ([.nil], s)

/-- The forms that a conditional form goes on with, and the state after the tests that it evaluates.
Its value is that of the last of these forms. -/
def select : Form → σ → List Form × σ
  | .list (.symbol "when" :: test :: body), s =>
    (if (e.test test s).1 then body else [.nil], (e.test test s).2)
  | .list [.symbol "if", test, body, other], s =>
    (if (e.test test s).1 then [body] else [other], (e.test test s).2)
  | .list (.symbol "cond" :: clauses), s => selectClause e clauses s
  | form, s => ([form], s)

end Select

/-- The form of a chain, from the tests and bodies of its branches and from what stands behind the
last `else`. -/
def conditional : List (Form × List Form) → Option (List Form) → Form
  | [(test, body)], none => call "when" (test :: body)
  | [(test, body)], some other => call "if" [test, sequence body, sequence other]
  | clauses, other =>
    call "cond" (clauses.flatMap (fun clause => [clause.1, sequence clause.2]) ++
      [.keyword "else", other.elim .nil sequence])

theorem conditional_cond (first second : Form × List Form) (clauses : List (Form × List Form))
    (other : Option (List Form)) : conditional (first :: second :: clauses) other =
      call "cond" ((first :: second :: clauses).flatMap (fun clause =>
        [clause.1, sequence clause.2]) ++ [.keyword "else", other.elim .nil sequence]) := by
  rw [conditional] <;> simp

/-- What the form of a chain goes on with, from the forms of the branch that is taken: `when` has
them as they are, and the others have them as one form. -/
def branchForms (clauses : List (Form × List Form)) (other : Option (List Form)) :
    Option (List Form) → List Form
  | none => [.nil]
  | some forms => if clauses.length = 1 && other.isNone then forms else [sequence forms]

section Select

variable {σ : Type} (e : Evaluation σ)

theorem selectClause_flatMap (body : List Form → Form) (clauses : List (Form × List Form))
    (other : Form) (s : σ) :
    selectClause e (clauses.flatMap (fun clause => [clause.1, body clause.2]) ++
        [.keyword "else", other]) s =
      ([(firstHolding e.test clauses s).1.elim other body],
        (firstHolding e.test clauses s).2) := by
  induction clauses generalizing s with
  | nil => simp [selectClause, firstHolding, e.test_keyword]
  | cons clause clauses ih =>
    rw [List.flatMap_cons, List.append_assoc, List.cons_append, List.singleton_append,
      selectClause, firstHolding, ih]
    split <;> rfl

/-- The form of a chain goes on with the branch of the first test that holds, or else with what
stands behind the last `else`. -/
theorem select_conditional {clauses : List (Form × List Form)} (hne : clauses ≠ [])
    (other : Option (List Form)) (s : σ) : (conditional clauses other).select e s =
      (branchForms clauses other ((firstHolding e.test clauses s).1.or other),
        (firstHolding e.test clauses s).2) := by
  match clauses, other with
  | [], _ => exact absurd rfl hne
  | [(test, body)], none =>
    rw [firstHolding]
    cases hholds : (e.test test s).1 <;>
      simp [conditional, call, select, branchForms, firstHolding, hholds]
  | [(test, body)], some other =>
    rw [firstHolding]
    cases hholds : (e.test test s).1 <;>
      simp [conditional, call, select, branchForms, firstHolding, hholds]
  | first :: second :: clauses, other =>
    have hselect : ∀ items, (call "cond" items).select e s = selectClause e items s := by
      intro items
      simp [call, select]
    rw [conditional_cond, hselect, selectClause_flatMap]
    cases (firstHolding e.test (first :: second :: clauses) s).1 <;> cases other <;>
      simp [branchForms]

end Select

end Form

/-! ### From statements to forms -/

namespace Rule

open Form

variable {visit : Visit}

/-- The test and the body of a branch are converted to one form and to a list of forms. -/
def IsClause (visit : Visit) (branch : Node × Node) (clause : Form × List Form) : Prop :=
  visit.one branch.1 = .ok clause.1 ∧ visit.block branch.2 = .ok clause.2

/-- A body is converted to a list of forms. -/
def IsBlock (visit : Visit) (node : Node) (forms : List Form) : Prop := visit.block node = .ok forms

theorem branchPair_eq_ok {test body : Node} {pair : List Form}
    (h : branchPair visit ⟨some test, body⟩ = .ok pair) :
    ∃ clause, IsClause visit (test, body) clause ∧ pair = [clause.1, Form.sequence clause.2] := by
  obtain ⟨form, hform, h⟩ := bind_eq_ok.1 h
  obtain ⟨forms, hforms, h⟩ := bind_eq_ok.1 h
  exact ⟨(form, forms), ⟨hform, hforms⟩, (Except.ok.inj h).symm⟩

theorem branchPair_else_eq_ok {body : Node} {pair : List Form}
    (h : branchPair visit ⟨none, body⟩ = .ok pair) :
    ∃ forms, IsBlock visit body forms ∧ pair = [.keyword "else", Form.sequence forms] := by
  obtain ⟨form, hform, h⟩ := bind_eq_ok.1 h
  obtain ⟨forms, hforms, h⟩ := bind_eq_ok.1 h
  cases hform
  exact ⟨forms, hforms, (Except.ok.inj h).symm⟩

theorem mapM_branchPair_eq_ok {chain : List (Node × Node)} {other : Option Node}
    {pairs : List (List Form)}
    (h : (chainBranches chain other).mapM (branchPair visit) = .ok pairs) :
    ∃ clauses close, List.Forall₂ (IsClause visit) chain clauses ∧
      Option.Rel (IsBlock visit) other close ∧
      pairs.flatten = clauses.flatMap (fun clause => [clause.1, Form.sequence clause.2]) ++
        close.toList.flatMap (fun forms => [.keyword "else", Form.sequence forms]) := by
  induction chain generalizing pairs with
  | nil =>
    cases other with
    | none =>
      cases h
      exact ⟨[], none, .nil, .none, rfl⟩
    | some other =>
      obtain ⟨pair, rest, hpair, hrest, rfl⟩ := List.forall₂_cons_left_iff.1 (mapM_eq_ok_iff.1 h)
      obtain rfl := List.forall₂_nil_left_iff.1 hrest
      obtain ⟨forms, hforms, rfl⟩ := branchPair_else_eq_ok hpair
      exact ⟨[], some forms, .nil, .some hforms, rfl⟩
  | cons branch chain ih =>
    obtain ⟨pair, rest, hpair, hrest, rfl⟩ := List.forall₂_cons_left_iff.1 (mapM_eq_ok_iff.1 h)
    obtain ⟨clause, hclause, rfl⟩ := branchPair_eq_ok hpair
    obtain ⟨clauses, close, hclauses, hclose, heq⟩ := ih (mapM_eq_ok_iff.2 hrest)
    refine ⟨clause :: clauses, close, .cons hclause hclauses, hclose, ?_⟩
    rw [List.flatten_cons, heq, List.flatMap_cons, List.append_assoc]

/-- A chain of conditions is converted to its form. -/
theorem ifStatement_eq_ok {node : Node} {chain : List (Node × Node)} {other : Option Node}
    {form : Form} (hc : node.IsChain chain other) (hne : chain ≠ [])
    (h : ifStatement visit node = .ok form) :
    ∃ clauses close, List.Forall₂ (IsClause visit) chain clauses ∧
      Option.Rel (IsBlock visit) other close ∧ form = conditional clauses close := by
  unfold ifStatement at h
  rw [hc.branches_eq] at h
  match chain, other with
  | [], _ => exact absurd rfl hne
  | [branch], none =>
    obtain ⟨test, htest, h⟩ := bind_eq_ok.1 h
    obtain ⟨body, hbody, h⟩ := bind_eq_ok.1 h
    exact ⟨[(test, body)], none, .cons ⟨htest, hbody⟩ .nil, .none, (Except.ok.inj h).symm⟩
  | [branch], some other =>
    obtain ⟨pair, hpair, h⟩ := bind_eq_ok.1 h
    obtain ⟨clause, hclause, rfl⟩ := branchPair_eq_ok hpair
    obtain ⟨forms, hforms, h⟩ := bind_eq_ok.1 h
    exact ⟨[clause], some forms, .cons hclause .nil, .some hforms, (Except.ok.inj h).symm⟩
  | first :: second :: chain, other =>
    split at h
    · rename_i heq
      simp [chainBranches] at heq
    · rename_i heq
      simp [chainBranches] at heq
    · obtain ⟨pairs, hpairs, h⟩ := bind_eq_ok.1 h
      obtain ⟨clauses, close, hclauses, hclose, hflat⟩ := mapM_branchPair_eq_ok hpairs
      refine ⟨clauses, close, hclauses, hclose, (Except.ok.inj h).symm.trans ?_⟩
      obtain ⟨_, _, -, htail, rfl⟩ := List.forall₂_cons_left_iff.1 hclauses
      obtain ⟨_, _, -, -, rfl⟩ := List.forall₂_cons_left_iff.1 htail
      rw [getLast?_chainBranches hne, hflat, conditional_cond]
      cases hclose with
      | none => simp
      | some hclose => simp

end Rule

namespace Node

/-- A chain of conditions is converted to one form, which has the branches of the chain in order and
nothing else: an `else if` is no form of its own. However tests are evaluated, the form evaluates
the same tests as the statement, in the same order, and goes on with the forms of the branch that
the statement takes, or with `nil` if it takes none. -/
theorem forms_ifStatement (scope : Scope) (test consequent : Node) (alternate : Option Node)
    (context : Context) {forms : List Form}
    (h : (Node.ifStatement test consequent alternate).forms scope context = .ok forms) :
    ∃ chain other clauses close,
      (Node.ifStatement test consequent alternate).branches = chainBranches chain other ∧
      chain ≠ [] ∧ (∀ m ∈ other, ¬m.isIf) ∧
      List.Forall₂ (Rule.IsClause (.forms scope)) chain clauses ∧
      Option.Rel (Rule.IsBlock (.forms scope)) other close ∧
      forms = [Form.conditional clauses close] ∧
      ∀ {σ : Type} (e : Form.Evaluation σ) (truth : Node → σ → Bool × σ),
        (∀ branch ∈ chain, ∀ form, (Rule.Visit.forms scope).one branch.1 = .ok form →
          truth branch.1 = e.test form) →
        ∀ s, ∃ selected,
          Option.Rel (Rule.IsBlock (.forms scope))
            ((Node.ifStatement test consequent alternate).taken truth s).1 selected ∧
          (Form.conditional clauses close).select e s =
            (Form.branchForms clauses close selected,
              ((Node.ifStatement test consequent alternate).taken truth s).2) := by
  obtain ⟨chain, other, hchain⟩ := exists_isChain (.ifStatement test consequent alternate)
  have hne := hchain.ne_nil rfl
  rw [forms_eq, Rule.step] at h
  obtain ⟨form, hform, hforms⟩ := bind_eq_ok.1 h
  obtain ⟨clauses, close, hclauses, hclose, rfl⟩ := Rule.ifStatement_eq_ok hchain hne hform
  refine ⟨chain, other, clauses, close, hchain.branches_eq, hne, hchain.not_isIf, hclauses, hclose,
    (Except.ok.inj hforms).symm, fun e truth htruth s => ?_⟩
  have hrel : List.Forall₂ (fun branch clause => truth branch.1 = e.test clause.1 ∧
      Rule.IsBlock (.forms scope) branch.2 clause.2) chain clauses := by
    refine List.Forall₂.imp ?_ ((List.forall₂_and_left _ _).2 ⟨fun _ hb => hb, hclauses⟩)
    rintro branch clause ⟨hb, hone, hblock⟩
    exact ⟨htruth branch hb clause.1 hone, hblock⟩
  obtain ⟨hselected, hstate⟩ := firstHolding_rel hrel s
  have hclauses_ne : clauses ≠ [] := by
    rintro rfl
    exact hne (List.forall₂_nil_right_iff.1 hclauses)
  rw [hchain.taken_eq, Form.select_conditional e hclauses_ne, ← hstate]
  refine ⟨(firstHolding e.test clauses s).1.or close, ?_, rfl⟩
  dsimp only
  -- The branch of the first test that holds comes before what stands behind the last `else`.
  generalize (firstHolding truth chain s).1 = first at hselected
  generalize (firstHolding e.test clauses s).1 = first' at hselected
  cases hselected with
  | none => exact hclose
  | some hbody => exact .some hbody

/-- The statement `if (a) x; else if (b) y; else;`. -/
def chainStatement : Node :=
  .ifStatement (.identifier "a") (.expressionStatement (.identifier "x") [])
    (some (.ifStatement (.identifier "b") (.blockStatement [.expressionStatement
      (.identifier "y") []]) (some .emptyStatement)))

/-- An evaluation that notes the names that are tested, of which only `b` holds. -/
def notedTests : Form.Evaluation (List String) where
  test
    | .keyword _, names => (true, names)
    | .symbol name, names => (name = "b", names ++ [name])
    | _, names => (false, names)
  test_keyword _ _ := rfl

/-- The evaluation of a test as that of its form. -/
def testByForm (scope : Scope) {σ : Type} (e : Form.Evaluation σ) (node : Node) : σ → Bool × σ :=
  match (Rule.Visit.forms scope).one node with
  | .ok form => e.test form
  | .error _ => fun s => (false, s)

/-- The body of the second branch is what the form goes on with, after two tests. -/
theorem forms_chainStatement : ∃ form, chainStatement.forms NameSet.host.scope = .ok [form] ∧
    form.select notedTests [] = ([.symbol "y"], ["a", "b"]) := by
  obtain ⟨form, hform⟩ : ∃ form, chainStatement.forms NameSet.host.scope = .ok [form] := ⟨_, rfl⟩
  obtain ⟨_, _, clauses, close, -, -, -, -, -, hforms, hselect⟩ := forms_ifStatement _ _ _ _ _ hform
  obtain rfl := List.singleton_inj.1 hforms
  obtain ⟨selected, hselected, heq⟩ := hselect notedTests (testByForm NameSet.host.scope notedTests)
    (fun branch _ form hone => by rw [testByForm, hone]) []
  -- The first test does not hold and the second does.
  replace hselected : Option.Rel (Rule.IsBlock (.forms NameSet.host.scope))
      (some (.blockStatement [.expressionStatement (.identifier "y") []])) selected := hselected
  cases hselected with
  | @some _ body hblock =>
    have hbody : Except.ok [.symbol "y"] = (Except.ok body : Except Fault (List Form)) := hblock
    obtain rfl := Except.ok.inj hbody
    refine ⟨_, hform, heq.trans ?_⟩
    rw [Form.branchForms, Form.sequence_singleton, ite_self]
    rfl

end Node

end ScriptForms
