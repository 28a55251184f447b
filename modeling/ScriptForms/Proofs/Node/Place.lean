import ScriptForms.Proofs.Node.Grammar

/-!
# Places

A few places of the grammar take more than a construct of its own: an array and an object take
spreads, an element takes texts and expressions in braces.

* `Node.Place`, `Node.places`: the children of a node with their places.
* `Node.admits_of_fits`: in a node with fitting children every place holds what it admits; spreads,
  texts and containers stand in the places that are made for them.
-/

namespace ScriptForms.Node

/-- The places of the grammar that take more than one construct. -/
inductive Place where
  /-- An element of an array. -/
  | element
  /-- A member of an object. -/
  | member
  /-- An argument of a call or a construction. -/
  | argument
  /-- What a container of an element holds. -/
  | content
  /-- A child of an element. -/
  | child
  /-- The value of an attribute. -/
  | value
  /-- Any other place. -/
  | other
  deriving DecidableEq

/-- The children of a node with their places. -/
def places : Node → List (Place × Node)
  | .arrayExpression elements => elements.map (.element, ·)
  | .objectExpression properties => properties.map (.member, ·)
  | .callExpression callee arguments | .newExpression callee arguments =>
    (.other, callee) :: arguments.map (.argument, ·)
  | .jsxExpressionContainer expression => expression.toList.map (.content, ·)
  | .jsxElement openingElement children => (.other, openingElement) :: children.map (.child, ·)
  | .jsxAttribute name value => (.other, name) :: value.toList.map (.value, ·)
  | node => node.children.map (.other, ·)

/-- Texts between elements. -/
def isText : Node → Bool
  | .jsxText _ => true
  | _ => false

/-- Expressions in braces, in an element. -/
def isContainer : Node → Bool
  | .jsxExpressionContainer _ => true
  | _ => false

/-- What a place holds. Where no more than one construct is taken, there is no spread, no text and
no container. -/
def Place.admits : Place → Node → Bool
  | .element, node | .argument, node | .content, node => node.isExpression || node.isSpread
  | .member, node => node.isObjectMember
  | .child, node => node.isElementChild
  | .value, node => node.isAttributeValue
  | .other, node => !node.isSpread && !node.isText && !node.isContainer

/-- A spread, a text or a container belongs to none of the classes of single constructs. -/
theorem classes_of_not_admits {node : Node} (h : ¬Place.other.admits node) :
    [isExpression, isStatement, isBinding, isIdentifier, isBlock, isClause, isHandler, isDeclarator,
      isDefinition, isImportName, isExportName, isKey, isOpening, isTag, isAttribute].all
      (!· node) := by
  cases node <;> first | rfl | exact absurd rfl h

theorem admits_other_of_fits {child node : Node} (h : node.fits)
    (hc : (.other, child) ∈ node.places) : Place.other.admits child := by
  by_contra hnot
  have hclasses := classes_of_not_admits hnot
  simp only [List.all_cons, List.all_nil, Bool.and_eq_true, Bool.not_eq_true'] at hclasses
  cases node with
  | exportNamedDeclaration declaration specifiers =>
    cases declaration <;> simp only [places, children, fits] at hc h <;> grind
  | _ =>
    simp only [places, children, fits, keyFits] at hc h
    grind

/-- In a node with fitting children every place holds what it admits. -/
theorem admits_of_fits {child node : Node} {place : Place} (h : node.fits)
    (hc : (place, child) ∈ node.places) : place.admits child := by
  by_cases hp : place = .other
  · subst hp
    exact admits_other_of_fits h hc
  · cases node with
    | arrayExpression | objectExpression | callExpression | newExpression | jsxExpressionContainer
    | jsxElement | jsxAttribute =>
      simp only [places, fits] at hc h
      grind [Place.admits]
    | _ =>
      -- The children of any other node stand in other places.
      obtain ⟨_, -, heq⟩ := List.mem_map.1 hc
      exact absurd (Prod.mk.inj heq).1.symm hp

theorem isSpread_place {child : Node} {place : Place} (h : place.admits child)
    (hs : child.isSpread) : place ∈ [.element, .member, .argument, .content] := by
  cases child with
  | spreadElement argument => cases place <;> first | decide | cases h
  | _ => cases hs

theorem isText_place {child : Node} {place : Place} (h : place.admits child)
    (ht : child.isText) : place = .child := by
  cases child with
  | jsxText text => cases place <;> first | rfl | cases h
  | _ => cases ht

theorem isContainer_place {child : Node} {place : Place} (h : place.admits child)
    (ht : child.isContainer) : place = .child ∨ place = .value := by
  cases child with
  | jsxExpressionContainer expression => cases place <;> first | decide | cases h
  | _ => cases ht

end ScriptForms.Node
