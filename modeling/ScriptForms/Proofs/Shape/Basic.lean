import ScriptForms.Proofs.Conversion
import ScriptForms.Proofs.Form.Shape
import ScriptForms.Proofs.Outcome

/-!
# Conversions that yield items

A conversion shapes a tree if its forms are items, or a single marker for a node that may leave
one. A rule of a grammatical tree yields items if the conversion that it is given shapes every
smaller tree (`ShapesBelow`). This module has that for functions and definitions.
-/

namespace ScriptForms

open Node Form

namespace Node

/-- Whether a node may leave a marker. -/
def leavesMarker : Node → Bool
  | .emptyStatement | .breakStatement | .jsxText _ | .jsxExpressionContainer _ => true
  | _ => false

theorem leavesMarker_of_isExpression {node : Node} (h : node.isExpression) :
    node.leavesMarker = false := by
  cases node <;> first | rfl | cases h

end Node

/-- Every form is an item. -/
def Form.AreItems (forms : List Form) : Prop := ∀ form ∈ forms, form.IsItem

namespace Rule

variable {visit : Visit}

/-- The forms are items, or a single marker that the node may leave; the tag of an element is one
name. -/
structure Shaped (node : Node) (forms : List Form) : Prop where
  items : AreItems forms ∨ node.leavesMarker ∧ ∃ marker : Form, marker.isMarker ∧ forms = [marker]
  tag : node.isTag → ∃ form : Form, form.isName ∧ forms = [form]

/-- The conversion shapes the node in every context. -/
def Shapes (visit : Visit) (node : Node) : Prop :=
  ∀ context, Yields (visit node context) (Shaped node)

/-- The conversion shapes every smaller tree. -/
abbrev ShapesBelow (visit : Visit) (size : Nat) : Prop := HoldsBelow (Shapes visit) size

/-! ### Uses of a child -/

theorem Shapes.forms {node : Node} (h : Shapes visit node) (hn : node.leavesMarker = false)
    (context : Context) : Yields (visit node context) AreItems := by
  refine (h context).imp fun forms hforms => ?_
  rcases hforms.items with hitems | ⟨hmarker, -⟩
  · exact hitems
  · rw [hn] at hmarker
    cases hmarker

theorem Shapes.one {node : Node} (h : Shapes visit node) (hn : node.leavesMarker = false)
    (context : Context) : Yields (visit.one node context) IsItem :=
  yields_bind (h.forms hn context) fun _ hforms => yields_pure (isItem_sequence hforms)

/-- Without its markers, what a node yields are items. -/
theorem areItems_filter {node : Node} {forms : List Form} (h : Shaped node forms) :
    AreItems (forms.filter fun form => !form.isMarker) := by
  intro form hm
  obtain ⟨hm, hnot⟩ := List.mem_filter.1 hm
  rcases h.items with hitems | ⟨-, marker, hmarker, rfl⟩
  · exact hitems form hm
  · rw [List.mem_singleton.1 hm, hmarker] at hnot
    cases hnot

theorem Shapes.block {node : Node} (h : Shapes visit node) : Yields (visit.block node) AreItems :=
  yields_bind (h .body) fun _ hforms => yields_pure (areItems_filter hforms)

variable {n : Nat} {child node : Node}

theorem ShapesBelow.one (hv : ShapesBelow visit n) (hsize : node.size < n) (hg : node.Grammatical)
    (he : node.isExpression) (context : Context) : Yields (visit.one node context) IsItem :=
  (hv node hsize hg (standsAlone_of_isExpression he)).one (leavesMarker_of_isExpression he) context

/-- An expression directly below a node yields an item. -/
theorem ShapesBelow.childOne (hv : ShapesBelow visit node.size) (hg : node.Grammatical)
    (hc : child ∈ node.children) (he : child.isExpression) (context : Context) :
    Yields (visit.one child context) IsItem :=
  ShapesBelow.one hv (size_of_child hc) (hg.child hc) he context

/-! ### Functions and definitions -/

theorem yields_bindingName (node : Node) : Yields (bindingName node) (·.isSymbol) := by
  cases node with
  | identifier name => exact yields_ok rfl
  | _ => exact yields_error _

theorem yields_function {head : String} {name : Option Form} {params : List Node} {body : Node}
    (hh : head = "fn" ∨ head = "defn") (hn : ∀ form ∈ name, form.isSymbol)
    (hb : Shapes visit body) : Yields (function visit head name params body) IsItem := by
  refine yields_bind (yields_mapM fun param _ => yields_bindingName param) fun params hparams => ?_
  refine yields_bind hb.block fun forms hforms => ?_
  exact yields_pure (.function hh hn hparams hforms)

/-- The body of a function stands alone, whether it is a block or an expression. -/
theorem shapes_functionBody {id : Option Node} {params : List Node} {body : Node}
    (hv : ShapesBelow visit (Node.functionExpression id params body).size)
    (hg : (Node.functionExpression id params body).Grammatical) : Shapes visit body := by
  have hfits := (grammatical_iff.1 hg).1
  simp only [fits, Bool.and_eq_true] at hfits
  exact hv.child hg (by simp [children]) (standsAlone_of_isBlock hfits.2)

theorem shapes_arrowBody {params : List Node} {body : Node}
    (hv : ShapesBelow visit (Node.arrowFunctionExpression params body).size)
    (hg : (Node.arrowFunctionExpression params body).Grammatical) : Shapes visit body := by
  have hfits := (grammatical_iff.1 hg).1
  simp only [fits, Bool.and_eq_true, Bool.or_eq_true] at hfits
  exact hv.child hg (by simp [children])
    (hfits.2.elim standsAlone_of_isBlock standsAlone_of_isExpression)

theorem yields_declarator {id : Node} {init : Option Node}
    (hv : ShapesBelow visit (Node.variableDeclarator id init).size)
    (hg : (Node.variableDeclarator id init).Grammatical) :
    Yields (declarator visit (.variableDeclarator id init)) IsItem := by
  have hfits := (grammatical_iff.1 hg).1
  simp only [fits, Bool.and_eq_true, Option.all_eq_true] at hfits
  refine yields_bind (yields_bindingName id) fun name hname => ?_
  have hnamed : ∀ form ∈ some name, form.isSymbol := by simpa using hname
  have hitem := isItem_of_isSymbol hname
  cases init with
  | none => exact yields_pure (isItem_call "def" (by simp [hitem, Form.nil, isItem_symbol]))
  | some init =>
    have hc : init ∈ (Node.variableDeclarator id (some init)).children := by simp [children]
    split
    · rename_i heq
      cases heq
      exact yields_function (.inr rfl) hnamed (shapes_arrowBody (hv.descend hc) (hg.child hc))
    · rename_i heq
      cases heq
      exact yields_function (.inr rfl) hnamed (shapes_functionBody (hv.descend hc) (hg.child hc))
    · rename_i heq
      cases heq
      refine yields_bind (hv.childOne hg hc (hfits.2 init rfl) .value) fun value hvalue => ?_
      exact yields_pure (isItem_call "def" (by simp [hitem, hvalue]))
    · rename_i heq
      cases heq

end Rule

end ScriptForms
