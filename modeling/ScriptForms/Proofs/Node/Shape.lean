import ScriptForms.Proofs.Node.Place
import ScriptForms.Proofs.Node.Proper
import ScriptForms.Proofs.Source.Comment

/-!
# The shape of programs

* `Node.IsTopStatement`: a statement at the top of a program.
* `Node.IsWellShaped`: what the rest of the library relies on in a tree.
* `Node.isWellShaped_program`: a program of such statements is of that shape.
-/

namespace ScriptForms.Node

open Text (IsTrimmedLine)

/-! ### Statements at the top -/

/-- A statement at the top of a program. The comment lines above it are single lines without outer
white space; everything else is as it is read. -/
structure IsTopStatement (node : Node) : Prop where
  statement : node.isStatement
  fits : node.fits
  worded : node.isWorded
  lines : ∀ line ∈ node.commentLines, IsTrimmedLine line.toList
  below : ∀ child ∈ node.children, child.Proper

theorem ProperIn.isTopStatement {node : Node} (h : ProperIn isStatement node) :
    node.IsTopStatement := by
  obtain ⟨hfits, hworded, hlines⟩ := h.2.subtree (mem_subtrees_self node)
  exact ⟨h.1, hfits, hworded, by simp [hlines], (proper_iff.1 h.2).2⟩

/-! ### Programs -/

/-- What a function, a method or a handler binds: its name and its parameters. -/
def bindings : Node → List Node
  | .functionDeclaration id params _ => id :: params
  | .functionExpression id params _ => id.toList ++ params
  | .arrowFunctionExpression params _ | .objectMethod _ _ params _ _ => params
  | .catchClause param _ => param.toList
  | _ => []

/-- A tree of the shape that a script has. -/
structure IsWellShaped (node : Node) : Prop where
  root : node.isProgram
  below : ∀ m ∈ node.descendants, m.isProgram = false
  templates : ∀ texts expressions, .templateLiteral texts expressions ∈ node.subtrees →
    texts.length = expressions.length + 1
  properties : ∀ object property, .memberExpression object property false ∈ node.subtrees →
    property.isIdentifier
  comments : ∀ statement ∈ node.children, ∀ m ∈ statement.descendants, m.commentLines = []
  lines : ∀ statement ∈ node.children, ∀ line ∈ statement.commentLines, IsTrimmedLine line.toList
  bindings : ∀ m ∈ node.subtrees, ∀ binding ∈ m.bindings, binding.isBinding
  declarators : ∀ kind declarations, .variableDeclaration kind declarations ∈ node.subtrees →
    ∀ m ∈ declarations, m.isDeclarator
  clauses : ∀ discriminant cases, .switchStatement discriminant cases ∈ node.subtrees →
    ∀ m ∈ cases, m.isClause
  handlers : ∀ block handler finalizer, .tryStatement block handler finalizer ∈ node.subtrees →
    ∀ m ∈ handler, m.isHandler
  openings : ∀ opening nodes, .jsxElement opening nodes ∈ node.subtrees → opening.isOpening
  attributes : ∀ name attributes selfClosing,
    .jsxOpeningElement name attributes selfClosing ∈ node.subtrees → ∀ m ∈ attributes, m.isAttribute
  spreads : ∀ m ∈ node.subtrees, ∀ entry ∈ m.places, entry.2.isSpread →
    entry.1 ∈ [.element, .member, .argument, .content]
  texts : ∀ m ∈ node.subtrees, ∀ entry ∈ m.places, entry.2.isText → entry.1 = .child
  containers : ∀ m ∈ node.subtrees, ∀ entry ∈ m.places, entry.2.isContainer →
    entry.1 = .child ∨ entry.1 = .value
  exports : ∀ declaration specifiers,
    .exportNamedDeclaration declaration specifiers ∈ node.subtrees →
    declaration = none ∨ specifiers = []
  words : ∀ m ∈ node.subtrees, m.isWorded

theorem isBinding_of_fits {node : Node} (h : node.fits) : ∀ m ∈ node.bindings, m.isBinding := by
  intro m hm
  cases node with
  | functionDeclaration | functionExpression | arrowFunctionExpression | objectMethod
  | catchClause =>
    simp only [bindings, fits] at hm h
    grind
  | _ => cases hm

/-- The grammar gives a script its shape; comments and words are what it leaves open. -/
theorem IsScript.isWellShaped {node : Node} (h : node.IsScript)
    (hcomments : ∀ statement ∈ node.children, ∀ m ∈ statement.descendants, m.commentLines = [])
    (hlines : ∀ statement ∈ node.children, ∀ line ∈ statement.commentLines,
      IsTrimmedLine line.toList)
    (hwords : ∀ m ∈ node.subtrees, m.isWorded) : node.IsWellShaped where
  root := h.1
  below := fun _ => h.2.not_isProgram_descendant
  templates := fun texts expressions hm => by
    have hfits := h.2 _ hm
    simp only [fits, Bool.and_eq_true, beq_iff_eq] at hfits
    exact hfits.2
  properties := fun object property hm => by
    have hfits := h.2 _ hm
    simp only [fits, Bool.and_eq_true] at hfits
    exact hfits.2
  comments := hcomments
  lines := hlines
  bindings := fun m hm => isBinding_of_fits (h.2 m hm)
  declarators := fun kind declarations hm => by simpa [fits] using h.2 _ hm
  clauses := fun discriminant cases hm => by
    have hfits := h.2 _ hm
    simp only [fits, Bool.and_eq_true, List.all_eq_true] at hfits
    exact hfits.2
  handlers := fun block handler finalizer hm => by
    have hfits := h.2 _ hm
    simp only [fits, Bool.and_eq_true, Option.all_eq_true] at hfits
    exact hfits.1.2
  openings := fun opening nodes hm => by
    have hfits := h.2 _ hm
    simp only [fits, Bool.and_eq_true] at hfits
    exact hfits.1
  attributes := fun name attributes selfClosing hm => by
    have hfits := h.2 _ hm
    simp only [fits, Bool.and_eq_true, List.all_eq_true] at hfits
    exact hfits.2
  spreads := fun m hm entry he => isSpread_place (admits_of_fits (h.2 m hm) he)
  texts := fun m hm entry he => isText_place (admits_of_fits (h.2 m hm) he)
  containers := fun m hm entry he => isContainer_place (admits_of_fits (h.2 m hm) he)
  exports := fun declaration specifiers hm => by
    have hfits := h.2 _ hm
    cases declaration with
    | none => exact .inl rfl
    | some declaration =>
      simp only [fits, Bool.and_eq_true, List.isEmpty_iff] at hfits
      exact .inr hfits.2
  words := hwords

/-- A program of statements as they stand at the top has the shape of a script. -/
theorem isWellShaped_program {body : List Node} (hbody : ∀ statement ∈ body,
    statement.IsTopStatement) : (Node.program body).IsWellShaped := by
  have hbelow : ∀ statement ∈ body, ∀ m ∈ statement.descendants,
      m.fits ∧ m.isWorded ∧ m.commentLines = [] := by
    intro statement hs m hm
    obtain ⟨child, hc, hm⟩ := List.mem_flatMap.1 hm
    exact ((hbody statement hs).below child hc).subtree hm
  have hscript : (Node.program body).IsScript := by
    refine ⟨rfl, grammatical_iff.2 ⟨?_, fun statement hs => ?_⟩⟩
    · exact List.all_eq_true.2 fun statement hs => (hbody statement hs).statement
    · intro m hm
      rw [subtrees_eq] at hm
      rcases List.mem_cons.1 hm with rfl | hm
      · exact (hbody _ hs).fits
      · exact (hbelow statement hs m hm).1
  refine hscript.isWellShaped (fun statement hs m hm => (hbelow statement hs m hm).2.2)
    (fun statement hs => (hbody statement hs).lines) (forall_subtrees_iff.2 ⟨rfl, ?_⟩)
  intro statement hs m hm
  rw [subtrees_eq] at hm
  rcases List.mem_cons.1 hm with rfl | hm
  · exact (hbody _ hs).worded
  · exact (hbelow statement hs m hm).2.1

end ScriptForms.Node
