import ScriptForms.Proofs.Conversion
import ScriptForms.Proofs.Node.Accepted
import ScriptForms.Proofs.Outcome

/-!
# Conversions that decide which trees have forms

A conversion of nodes to forms decides a tree if it succeeds on it exactly when the tree is
accepted. A rule of a grammatical tree decides it if the conversion that it is given decides every
smaller tree (`DecidesBelow`). This module has that for functions and definitions.
-/

namespace ScriptForms.Rule

open Node

variable {visit : Visit}

/-- The conversion succeeds on the node, in every context, iff the node is accepted. -/
def Decides (visit : Visit) (node : Node) : Prop :=
  ∀ context, Succeeds (visit node context) ↔ node.Accepted

/-- The conversion decides every smaller tree. -/
abbrev DecidesBelow (visit : Visit) (size : Nat) : Prop := HoldsBelow (Decides visit) size

@[simp] theorem succeeds_one {node : Node} {context : Context} :
    Succeeds (visit.one node context) ↔ Succeeds (visit node context) := by
  simp [Visit.one]

@[simp] theorem succeeds_block {node : Node} :
    Succeeds (visit.block node) ↔ Succeeds (visit node .body) := by
  simp [Visit.block]

/-! ### Functions and definitions -/

theorem succeeds_bindingName {node : Node} (h : node.isBinding) :
    Succeeds (bindingName node) ↔ node.Accepted := by
  cases node with
  | identifier name => simp [bindingName, accepted_identifier]
  | unsupported kind text => simp [bindingName, not_accepted_unsupported]
  | _ => cases h

theorem succeeds_bindingNames {params : List Node} (h : ∀ p ∈ params, p.isBinding) :
    Succeeds (params.mapM bindingName) ↔ ∀ p ∈ params, p.Accepted := by
  rw [succeeds_mapM]
  exact forall₂_congr fun p hp => succeeds_bindingName (h p hp)

theorem succeeds_function {head : String} {name : Option Form} {params : List Node} {body : Node}
    (hp : ∀ p ∈ params, p.isBinding) (hb : Decides visit body) :
    Succeeds (function visit head name params body) ↔
      (∀ p ∈ params, p.Accepted) ∧ body.Accepted := by
  simp only [function, succeeds_bind, succeeds_pure, succeeds_block, hb .body,
    ← succeeds_bindingNames hp, and_true, exists_eq_ok_iff, exists_and_right]

theorem succeeds_arrow {head : String} {name : Option Form} {params : List Node} {body : Node}
    (hv : DecidesBelow visit (Node.arrowFunctionExpression params body).size)
    (hg : (Node.arrowFunctionExpression params body).Grammatical) :
    Succeeds (function visit head name params body) ↔
      (Node.arrowFunctionExpression params body).Accepted := by
  have hfits := (grammatical_iff.1 hg).1
  simp only [fits, Bool.and_eq_true, Bool.or_eq_true, List.all_eq_true] at hfits
  have hb : Decides visit body := hv.child hg (by simp [children])
    (hfits.2.elim standsAlone_of_isBlock standsAlone_of_isExpression)
  rw [succeeds_function hfits.1 hb, accepted_iff (.arrowFunctionExpression ..)]
  simp [isRefused, children, or_imp, forall_and]

theorem succeeds_functionExpression {head : String} {name : Option Form} {params : List Node}
    {body : Node} (hv : DecidesBelow visit (Node.functionExpression none params body).size)
    (hg : (Node.functionExpression none params body).Grammatical) :
    Succeeds (function visit head name params body) ↔
      (Node.functionExpression none params body).Accepted := by
  have hfits := (grammatical_iff.1 hg).1
  simp only [fits, Bool.and_eq_true, List.all_eq_true] at hfits
  have hb : Decides visit body :=
    hv.child hg (by simp [children]) (standsAlone_of_isBlock hfits.2)
  rw [succeeds_function hfits.1.2 hb, accepted_iff (.functionExpression ..)]
  simp [isRefused, children, or_imp, forall_and]

theorem succeeds_declarator {id : Node} {init : Option Node}
    (hv : DecidesBelow visit (Node.variableDeclarator id init).size)
    (hg : (Node.variableDeclarator id init).Grammatical) :
    Succeeds (declarator visit (.variableDeclarator id init)) ↔
      (Node.variableDeclarator id init).Accepted := by
  have hfits := (grammatical_iff.1 hg).1
  simp only [fits, Bool.and_eq_true] at hfits
  have hname := succeeds_bindingName hfits.1
  cases init with
  | none =>
    rw [accepted_iff (.variableDeclarator ..)]
    simp [declarator, isRefused, children, hname]
  | some init =>
    have hc : init ∈ (Node.variableDeclarator id (some init)).children := by simp [children]
    have hinit : Decides visit init :=
      hv.child hg hc (standsAlone_of_isExpression (by simpa using hfits.2))
    have hparts : Succeeds (declarator visit (.variableDeclarator id (some init))) ↔
        Succeeds (bindingName id) ∧ init.Accepted := by
      rw [declarator]
      refine succeeds_bind_iff fun name _ => ?_
      split
      · rename_i heq
        cases heq
        exact succeeds_arrow (hv.descend hc) (hg.child hc)
      · rename_i heq
        cases heq
        exact succeeds_functionExpression (hv.descend hc) (hg.child hc)
      · rename_i heq
        cases heq
        simp [hinit .value]
      · rename_i heq
        cases heq
    rw [hparts, hname, accepted_iff (.variableDeclarator ..)]
    simp [isRefused, children]

end ScriptForms.Rule
