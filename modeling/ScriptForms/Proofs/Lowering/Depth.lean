import ScriptForms.Lowering.Program
import ScriptForms.Proofs.Node.Subtree
import ScriptForms.Proofs.Outcome
import ScriptForms.Proofs.Tree.Basic

/-!
# The depth of nesting is no bound

The rules are tied together up to a depth of nesting. A rule asks only for the syntax trees of
smaller concrete trees, so that the size of a tree is depth enough, and the syntax tree of a
concrete tree is the one that its rule makes of the syntax trees below it.

* `Lowering.SameBelow`: functions that are the same on all trees below a size.
* `Lowering.step_congr`: one step of such functions.
* `Lowering.lower_eq`: the syntax tree of a concrete tree from those of smaller ones.
-/

namespace ScriptForms.Lowering

variable {source : List Char} {lower₁ lower₂ : Lower} {size : Nat} {tree child : Tree}

/-- The two functions are the same on all trees below a size. -/
def SameBelow (lower₁ lower₂ : Lower) (size : Nat) : Prop :=
  ∀ tree : Tree, tree.size < size → lower₁ tree = lower₂ tree

namespace SameBelow

theorem eq (h : SameBelow lower₁ lower₂ size) (hn : tree.size ≤ size)
    (hc : child ∈ tree.children) : lower₁ child = lower₂ child :=
  h child (Nat.lt_of_lt_of_le (Tree.size_lt_of_mem_children hc) hn)

theorem size_lt (hn : tree.size ≤ size) (hc : child ∈ tree.children) : child.size < size :=
  Nat.lt_of_lt_of_le (Tree.size_lt_of_mem_children hc) hn

theorem size_le (hn : tree.size ≤ size) (hc : child ∈ tree.children) : child.size ≤ size :=
  Nat.le_of_lt (size_lt hn hc)

end SameBelow

theorem field_bind_congr {α : Type} {name : String} {f g : Tree → Except ParseError α}
    (h : ∀ child ∈ tree.children, f child = g child) :
    (field source tree name >>= f) = field source tree name >>= g := by
  unfold field
  cases hc : tree.child? name with
  | none => rfl
  | some child => exact h child (Tree.mem_children_of_child? hc)

theorem firstNamed_bind_congr {α : Type} {part : String} {f g : Tree → Except ParseError α}
    (h : ∀ child ∈ tree.children, f child = g child) :
    (firstNamed source tree part >>= f) = firstNamed source tree part >>= g := by
  unfold firstNamed
  cases hc : tree.named with
  | nil => rfl
  | cons child rest => exact h child (Tree.mem_children_of_mem_named (by simp [hc]))

/-! ### Parts -/

section Parts

variable (h : SameBelow lower₁ lower₂ size) (hn : tree.size ≤ size)
include h hn

theorem lowerAt_congr (name : String) :
    lowerAt source lower₁ name tree = lowerAt source lower₂ name tree :=
  field_bind_congr fun _ hc => h.eq hn hc

theorem lowerAt?_congr (name : String) : lowerAt? lower₁ name tree = lowerAt? lower₂ name tree :=
  optionMapM_congr fun _ hc => h.eq hn (Tree.mem_children_of_child? hc)

theorem lowerFirst_congr (part : String) :
    lowerFirst source lower₁ part tree = lowerFirst source lower₂ part tree :=
  firstNamed_bind_congr fun _ hc => h.eq hn hc

theorem lowerFirst?_congr : lowerFirst? lower₁ tree = lowerFirst? lower₂ tree :=
  optionMapM_congr fun _ hc =>
    h.eq hn (Tree.mem_children_of_mem_named (List.mem_of_mem_head? hc))

theorem lowerNamed_congr : lowerNamed lower₁ tree = lowerNamed lower₂ tree :=
  mapM_congr fun _ hc => h.eq hn (Tree.mem_children_of_mem_named hc)

theorem childrenAt_congr (name : String) :
    (tree.childrenAt name).mapM lower₁ = (tree.childrenAt name).mapM lower₂ :=
  mapM_congr fun _ hc => h.eq hn (Tree.mem_children_of_mem_childrenAt hc)

end Parts

/-! ### Statements -/

section Rules

variable (h : SameBelow lower₁ lower₂ size) (hn : tree.size ≤ size)
include h hn

theorem ifStatement_congr : ifStatement source lower₁ tree = ifStatement source lower₂ tree := by
  have halternate : (tree.child? "alternative").mapM (lowerFirst source lower₁ "statement") =
      (tree.child? "alternative").mapM (lowerFirst source lower₂ "statement") :=
    optionMapM_congr fun clause hc =>
      lowerFirst_congr h (SameBelow.size_le hn (Tree.mem_children_of_child? hc)) _
  simp only [ifStatement, halternate, lowerAt_congr h hn]

theorem switchClause_congr : switchClause source lower₁ tree = switchClause source lower₂ tree := by
  unfold switchClause
  simp only [lowerAt_congr h hn, childrenAt_congr h hn]

theorem switchStatement_congr :
    switchStatement source lower₁ tree = switchStatement source lower₂ tree := by
  simp only [switchStatement, lowerAt_congr h hn]
  refine field_bind_congr fun body hb => ?_
  have hclauses : body.named.mapM (switchClause source lower₁) =
      body.named.mapM (switchClause source lower₂) := by
    refine mapM_congr fun clause hc => switchClause_congr h ?_
    exact SameBelow.size_le (SameBelow.size_le hn hb) (Tree.mem_children_of_mem_named hc)
  rw [hclauses]

theorem catchClause_congr : catchClause source lower₁ tree = catchClause source lower₂ tree := by
  simp only [catchClause, lowerAt_congr h hn]

theorem tryStatement_congr : tryStatement source lower₁ tree = tryStatement source lower₂ tree := by
  have hhandler : (tree.child? "handler").mapM (catchClause source lower₁) =
      (tree.child? "handler").mapM (catchClause source lower₂) :=
    optionMapM_congr fun clause hc =>
      catchClause_congr h (SameBelow.size_le hn (Tree.mem_children_of_child? hc))
  have hfinalizer : (tree.child? "finalizer").mapM (lowerAt source lower₁ "body") =
      (tree.child? "finalizer").mapM (lowerAt source lower₂ "body") :=
    optionMapM_congr fun clause hc =>
      lowerAt_congr h (SameBelow.size_le hn (Tree.mem_children_of_child? hc)) _
  simp only [tryStatement, hhandler, hfinalizer, lowerAt_congr h hn]

theorem declarator_congr : declarator source lower₁ tree = declarator source lower₂ tree := by
  simp only [declarator, lowerAt_congr h hn, lowerAt?_congr h hn]

theorem declaration_congr : declaration source lower₁ tree = declaration source lower₂ tree := by
  unfold declaration
  have hdeclarators : ∀ d ∈ tree.named.filter (·.kind == "variable_declarator"),
      declarator source lower₁ d = declarator source lower₂ d := fun d hd =>
    declarator_congr h
      (SameBelow.size_le hn (Tree.mem_children_of_mem_named (List.mem_filter.1 hd).1))
  simp only [mapM_congr hdeclarators]

theorem functionDeclaration_congr :
    functionDeclaration source lower₁ tree = functionDeclaration source lower₂ tree := by
  simp only [functionDeclaration, lowerAt_congr h hn]

theorem exportStatement_congr :
    exportStatement source lower₁ tree = exportStatement source lower₂ tree := by
  unfold exportStatement
  split
  · rfl
  · split
    · rename_i hd
      rw [h.eq hn (Tree.mem_children_of_child? hd)]
    · rename_i hv
      rw [h.eq hn (Tree.mem_children_of_child? hv)]
    · rfl

end Rules

/-! ### Expressions and elements -/

theorem templateParts_congr (h : SameBelow lower₁ lower₂ size) {substitutions : List Tree}
    (hs : ∀ s ∈ substitutions, s.size ≤ size) (stop offset : Nat) :
    templateParts source lower₁ stop offset substitutions =
      templateParts source lower₂ stop offset substitutions := by
  induction substitutions generalizing offset with
  | nil => rfl
  | cons substitution rest ih =>
    rw [List.forall_mem_cons] at hs
    simp only [templateParts, lowerFirst_congr h hs.1, ih hs.2]

theorem propertyKey_congr (h : SameBelow lower₁ lower₂ size) (hn : tree.size < size) :
    propertyKey source lower₁ tree = propertyKey source lower₂ tree := by
  unfold propertyKey
  simp only [h tree hn, lowerFirst_congr h (Nat.le_of_lt hn)]

theorem attributeValue_congr (h : SameBelow lower₁ lower₂ size) (hn : tree.size < size) :
    attributeValue source lower₁ tree = attributeValue source lower₂ tree := by
  unfold attributeValue
  rw [h tree hn]

theorem openingAttribute_congr (h : SameBelow lower₁ lower₂ size) (hn : tree.size < size) :
    openingAttribute source lower₁ tree = openingAttribute source lower₂ tree := by
  unfold openingAttribute
  rw [h tree hn]

section Rules

variable (h : SameBelow lower₁ lower₂ size) (hn : tree.size ≤ size)
include h hn

theorem template_congr : template source lower₁ tree = template source lower₂ tree := by
  have hsize : ∀ s ∈ tree.named.filter (·.kind == "template_substitution"), s.size ≤ size :=
    fun s hs => SameBelow.size_le hn (Tree.mem_children_of_mem_named (List.mem_filter.1 hs).1)
  simp only [template, templateParts_congr h hsize]

theorem objectMethod_congr : objectMethod source lower₁ tree = objectMethod source lower₂ tree := by
  simp only [objectMethod, lowerAt_congr h hn]
  have hkey : ∀ key ∈ tree.children,
      propertyKey source lower₁ key = propertyKey source lower₂ key :=
    fun key hk => propertyKey_congr h (SameBelow.size_lt hn hk)
  split
  · rfl
  · exact field_bind_congr fun key hk => by rw [hkey key hk]

theorem pair_congr : pair source lower₁ tree = pair source lower₂ tree := by
  simp only [pair, lowerAt_congr h hn]
  exact field_bind_congr fun key hk => by rw [propertyKey_congr h (SameBelow.size_lt hn hk)]

theorem functionExpression_congr :
    functionExpression source lower₁ tree = functionExpression source lower₂ tree := by
  simp only [functionExpression, lowerAt_congr h hn]

theorem arrowFunction_congr :
    arrowFunction source lower₁ tree = arrowFunction source lower₂ tree := by
  simp only [arrowFunction, lowerAt_congr h hn]

theorem unary_congr : unary source lower₁ tree = unary source lower₂ tree := by
  simp only [unary, lowerAt_congr h hn]

theorem binary_congr : binary source lower₁ tree = binary source lower₂ tree := by
  simp only [binary, lowerAt_congr h hn]

theorem assignment_congr (operator : String) :
    assignment source lower₁ operator tree = assignment source lower₂ operator tree := by
  simp only [assignment, lowerAt_congr h hn]

theorem augmentedAssignment_congr :
    augmentedAssignment source lower₁ tree = augmentedAssignment source lower₂ tree := by
  simp only [augmentedAssignment, assignment_congr h hn]

theorem ternary_congr : ternary source lower₁ tree = ternary source lower₂ tree := by
  simp only [ternary, lowerAt_congr h hn]

theorem call_congr : call source lower₁ tree = call source lower₂ tree := by
  simp only [call, lowerAt_congr h hn]
  exact field_bind_congr fun arguments ha => by rw [lowerNamed_congr h (SameBelow.size_le hn ha)]

theorem construction_congr : construction source lower₁ tree = construction source lower₂ tree := by
  simp only [construction, lowerAt_congr h hn]
  refine bind_congr fun callee => ?_
  split
  · rename_i arguments ha
    rw [lowerNamed_congr h (SameBelow.size_le hn (Tree.mem_children_of_child? ha))]
  · rfl

theorem member_congr : member source lower₁ tree = member source lower₂ tree := by
  simp only [member, lowerAt_congr h hn]

theorem subscript_congr : subscript source lower₁ tree = subscript source lower₂ tree := by
  simp only [subscript, lowerAt_congr h hn]

theorem opening_congr (selfClosing : Bool) :
    opening source lower₁ selfClosing tree = opening source lower₂ selfClosing tree := by
  have hattributes : (tree.childrenAt "attribute").mapM (openingAttribute source lower₁) =
      (tree.childrenAt "attribute").mapM (openingAttribute source lower₂) :=
    mapM_congr fun part ha => openingAttribute_congr h
      (SameBelow.size_lt hn (Tree.mem_children_of_mem_childrenAt ha))
  simp only [opening, hattributes]

theorem element_congr : element source lower₁ tree = element source lower₂ tree := by
  have hcontent : tree.content.mapM lower₁ = tree.content.mapM lower₂ :=
    mapM_congr fun child hc => h.eq hn (Tree.mem_children_of_mem_content hc)
  simp only [element, hcontent]
  exact field_bind_congr fun tag ht => by rw [opening_congr h (SameBelow.size_le hn ht)]

theorem selfClosingElement_congr :
    selfClosingElement source lower₁ tree = selfClosingElement source lower₂ tree := by
  simp only [selfClosingElement, opening_congr h hn]

theorem elementAttribute_congr :
    elementAttribute source lower₁ tree = elementAttribute source lower₂ tree := by
  have hvalue : tree.named.tail.head?.mapM (attributeValue source lower₁) =
      tree.named.tail.head?.mapM (attributeValue source lower₂) := by
    refine optionMapM_congr fun value hv => attributeValue_congr h (SameBelow.size_lt hn ?_)
    exact Tree.mem_children_of_mem_named (List.mem_of_mem_tail (List.mem_of_mem_head? hv))
  simp only [elementAttribute, hvalue]

end Rules

theorem objectMember_congr (h : SameBelow lower₁ lower₂ size) (hn : tree.size < size) :
    objectMember source lower₁ tree = objectMember source lower₂ tree := by
  unfold objectMember
  simp only [pair_congr h (Nat.le_of_lt hn), objectMethod_congr h (Nat.le_of_lt hn), h tree hn]

/-! ### All rules -/

theorem statementRule?_congr (h : SameBelow lower₁ lower₂ size) (hn : tree.size ≤ size)
    (kind : String) : (statementRule? source lower₁ kind).map (· tree) =
      (statementRule? source lower₂ kind).map (· tree) := by
  unfold statementRule?
  split <;> simp only [Option.map_some, Option.map_none, lowerFirst_congr h hn,
    lowerFirst?_congr h hn, lowerNamed_congr h hn, ifStatement_congr h hn,
    switchStatement_congr h hn, tryStatement_congr h hn, declaration_congr h hn,
    functionDeclaration_congr h hn, exportStatement_congr h hn]

theorem expressionRule?_congr (h : SameBelow lower₁ lower₂ size) (hn : tree.size ≤ size)
    (kind : String) : (expressionRule? source lower₁ kind).map (· tree) =
      (expressionRule? source lower₂ kind).map (· tree) := by
  have hmembers : tree.named.mapM (objectMember source lower₁) =
      tree.named.mapM (objectMember source lower₂) :=
    mapM_congr fun m hm =>
      objectMember_congr h (SameBelow.size_lt hn (Tree.mem_children_of_mem_named hm))
  unfold expressionRule?
  split <;> simp only [Option.map_some, Option.map_none, hmembers, lowerFirst_congr h hn,
    lowerFirst?_congr h hn, lowerNamed_congr h hn, template_congr h hn,
    functionExpression_congr h hn, arrowFunction_congr h hn, unary_congr h hn, binary_congr h hn,
    assignment_congr h hn, augmentedAssignment_congr h hn, ternary_congr h hn, call_congr h hn,
    construction_congr h hn, member_congr h hn, subscript_congr h hn, element_congr h hn,
    selfClosingElement_congr h hn, elementAttribute_congr h hn]

theorem step_eq (lower : Lower) (tree : Tree) : step source lower tree =
    (((statementRule? source lower tree.kind).map (· tree)) <|>
      (expressionRule? source lower tree.kind).map (· tree)).getD
        (.ok (unsupported source tree)) := by
  unfold step
  cases statementRule? source lower tree.kind with
  | some rule => rfl
  | none => cases expressionRule? source lower tree.kind <;> rfl

/-- One step of functions that are the same on smaller trees. -/
theorem step_congr (h : SameBelow lower₁ lower₂ size) (hn : tree.size ≤ size) :
    step source lower₁ tree = step source lower₂ tree := by
  rw [step_eq, step_eq, statementRule?_congr h hn, expressionRule?_congr h hn]

/-- A tree has the same syntax tree at every depth that it fits into. -/
theorem lowerWithin_eq_lowerWithin {depth₁ depth₂ : Nat} (h₁ : tree.size ≤ depth₁)
    (h₂ : tree.size ≤ depth₂) :
    lowerWithin source depth₁ tree = lowerWithin source depth₂ tree :=
  cut_congr Tree.size_pos (fun _ _ _ h => step_congr h (Nat.le_refl _)) h₁ h₂

/-- The syntax tree of a concrete tree is what its rule makes of those of smaller trees. -/
theorem lower_eq (source : List Char) (tree : Tree) :
    lower source tree = step source (lower source) tree := by
  obtain ⟨depth, hdepth⟩ := Nat.exists_eq_add_one.2 tree.size_pos
  rw [lower, hdepth]
  have hbelow : SameBelow (lowerWithin source depth) (lower source) tree.size := fun t ht =>
    lowerWithin_eq_lowerWithin (by omega) (Nat.le_refl _)
  exact step_congr hbelow (Nat.le_refl _)

end ScriptForms.Lowering
