import ScriptForms.Proofs.Node.Grammar
import ScriptForms.Proofs.Outcome
import ScriptForms.Rule.Convert

/-!
# Induction over conversions

A rule sees smaller trees through the conversion that it is given. What every rule carries over from
smaller trees to a tree therefore holds of the whole conversion, whatever its depth.

* `Rule.HoldsBelow`: a property of every grammatical tree below a size.
* `Rule.convert_holds`: from one step to all depths.
* `Rule.step_part_cases`: what one step does with nodes that are no expressions and no statements.
* `Rule.clauses_cons_cases`: what the conversion of one clause can be.
-/

namespace ScriptForms.Rule

open Node

/-- The property holds of every grammatical tree below a size that has forms of its own. -/
def HoldsBelow (p : Node → Prop) (size : Nat) : Prop :=
  ∀ node : Node, node.size < size → node.Grammatical → node.standsAlone → p node

variable {p : Node → Prop} {visit : Visit}

theorem HoldsBelow.mono {m n : Nat} (hv : HoldsBelow p n) (h : m ≤ n) : HoldsBelow p m :=
  fun node hsize => hv node (by omega)

theorem HoldsBelow.descendant {m node : Node} (hv : HoldsBelow p node.size)
    (hg : node.Grammatical) (hm : m ∈ node.descendants) (hs : m.standsAlone) : p m :=
  hv m (size_lt_of_mem_descendants hm) (hg.descendants hm) hs

theorem HoldsBelow.child {child node : Node} (hv : HoldsBelow p node.size) (hg : node.Grammatical)
    (hc : child ∈ node.children) (hs : child.standsAlone) : p child :=
  hv.descendant hg (mem_descendants_of_mem_children hc) hs

/-- The property holds of what stands below a child as well. -/
theorem HoldsBelow.descend {child node : Node} (hv : HoldsBelow p node.size)
    (hc : child ∈ node.children) : HoldsBelow p child.size :=
  hv.mono (Nat.le_of_lt (size_of_child hc))

/-- The conversion has no forms for a spread on its own. -/
def RefusesSpreads (visit : Visit) : Prop :=
  ∀ argument context, ∃ fault, visit (.spreadElement argument) context = .error fault

theorem refusesSpreads_convert (scope : Scope) (depth : Nat) :
    RefusesSpreads (convert scope depth) := by
  intro argument context
  cases depth with
  | zero => exact ⟨_, rfl⟩
  | succ depth => exact ⟨_, rfl⟩

/-- A property of conversions and trees that one step carries over from smaller trees holds of a
conversion of any depth and every tree that is no deeper. -/
theorem convert_holds {q : Visit → Node → Prop} (scope : Scope)
    (hstep : ∀ (visit : Visit) (node : Node), RefusesSpreads visit →
      HoldsBelow (q visit) node.size → node.Grammatical → node.standsAlone →
      q (step scope visit) node) (depth : Nat) :
    HoldsBelow (q (convert scope depth)) (depth + 1) := by
  induction depth with
  | zero =>
    intro node hsize
    have hpos := size_pos node
    omega
  | succ depth ih =>
    intro node hsize hg hs
    rw [convert]
    exact hstep _ node (refusesSpreads_convert scope depth) (ih.mono (by omega)) hg hs

/-! ### Cases of rules -/

/-- What is neither an expression nor a statement has forms as a program, as a declarator or as a
part of an element. Anything else is misplaced, and a step fails on it. -/
theorem step_part_cases {node : Node} (he : ¬node.isExpression) (hs : ¬node.isStatement) :
    (∃ body, node = .program body) ∨ (∃ id init, node = .variableDeclarator id init) ∨
      (∃ name, node = .jsxIdentifier name) ∨
      (∃ expression, node = .jsxExpressionContainer expression) ∨ (∃ value, node = .jsxText value) ∨
      node.standsAlone = false ∧
        ∀ scope visit context, step scope visit node context = .error (.misplaced node) := by
  cases node with
  | program body => exact .inl ⟨body, rfl⟩
  | variableDeclarator id init => exact .inr (.inl ⟨id, init, rfl⟩)
  | jsxIdentifier name => exact .inr (.inr (.inl ⟨name, rfl⟩))
  | jsxExpressionContainer expression => exact .inr (.inr (.inr (.inl ⟨expression, rfl⟩)))
  | jsxText value => exact .inr (.inr (.inr (.inr (.inl ⟨value, rfl⟩))))
  | switchCase | catchClause | importSpecifier | importDefaultSpecifier | importNamespaceSpecifier
  | exportSpecifier | objectProperty | objectMethod | spreadElement | jsxOpeningElement
  | jsxAttribute => exact .inr (.inr (.inr (.inr (.inr ⟨rfl, fun _ _ _ => rfl⟩))))
  | _ => first | exact absurd rfl he | exact absurd rfl hs

/-- What the conversion of clauses can do with the first of them: a clause without statements waits
for the next body, a clause with a test and statements opens a pair, and a default clause drops the
tests that wait. -/
theorem clauses_cons_cases {number : Nat} {tests items : List Form} {node : Node}
    {rest : List Node} {default : Option Form}
    (h : clauses visit number tests (node :: rest) = .ok (items, default)) :
    (∃ test form, node = .switchCase (some test) [] ∧ visit.one test = .ok form ∧
      clauses visit (number + 1) (tests ++ [form]) rest = .ok (items, default)) ∨
    (∃ test first others form forms later, node = .switchCase (some test) (first :: others) ∧
      (rest ≠ [] → endsWithExit (first :: others)) ∧
      statements visit (clauseBody (first :: others)) = .ok forms ∧ visit.one test = .ok form ∧
      clauses visit (number + 1) [] rest = .ok (later, default) ∧
      items = caseTest (tests ++ [form]) :: caseBody forms :: later) ∨
    (∃ first others forms later, node = .switchCase none (first :: others) ∧
      (rest ≠ [] → endsWithExit (first :: others)) ∧
      statements visit (clauseBody (first :: others)) = .ok forms ∧
      clauses visit (number + 1) [] rest = .ok (items, later) ∧
      default = (later <|> some (caseBody forms))) := by
  cases node with
  | switchCase test consequent =>
    cases consequent with
    | nil =>
      cases test with
      | none => simp [clauses] at h
      | some test =>
        rw [clauses] at h
        obtain ⟨form, hform, h⟩ := bind_eq_ok.1 h
        exact .inl ⟨test, form, rfl, hform, h⟩
    | cons first others =>
      simp only [clauses] at h
      by_cases hfalls : !rest.isEmpty && !endsWithExit (first :: others)
      · rw [if_pos hfalls] at h
        cases h
      by_cases hbreaks : containsBreak (clauseBody (first :: others))
      · rw [if_neg hfalls, if_pos hbreaks] at h
        cases h
      rw [if_neg hfalls, if_neg hbreaks] at h
      have hexit : rest ≠ [] → endsWithExit (first :: others) := by
        intro hrest
        simpa [hrest] using hfalls
      obtain ⟨forms, hforms, h⟩ := bind_eq_ok.1 h
      cases test with
      | none =>
        obtain ⟨⟨later, default'⟩, hlater, h⟩ := bind_eq_ok.1 h
        cases h
        exact .inr (.inr ⟨first, others, forms, default', rfl, hexit, hforms, hlater, rfl⟩)
      | some test =>
        obtain ⟨form, hform, h⟩ := bind_eq_ok.1 h
        obtain ⟨⟨later, default'⟩, hlater, h⟩ := bind_eq_ok.1 h
        cases h
        exact .inr (.inl ⟨test, first, others, form, forms, later, rfl, hexit, hforms, hform,
          hlater, rfl⟩)
  | _ => simp [clauses] at h

end ScriptForms.Rule
