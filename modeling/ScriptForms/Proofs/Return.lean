import ScriptForms.Proofs.Acceptance.Convert

/-!
# Returns that are not last

The form of a function gives the value of its last statement, so a `return` keeps its meaning only
where nothing follows it. No rule looks at where a `return` stands: in a statement list it has the
form of its bare value, and what follows it is converted as if it were reached.

* `Node.holdsReturn`: a statement with a `return` of the function around it.
* `Node.returnsLast`: a statement all of whose returns end the function anyway.
* `Node.ReturnsLast`: this holds of the body of every function of a tree.
* `Node.forms_return`: a `return` in a block is converted like its value.
* `Node.toProgram_returnsLast_iff`: which scripts are converted without a `return` being lost.
-/

namespace ScriptForms

namespace Node

/-! ### Where returns stand -/

mutual

/-- Whether a statement holds a `return` of the function around it. Functions inside the statement
own their returns. -/
def holdsReturn : Node → Bool
  | .returnStatement _ => true
  | .blockStatement body | .switchCase _ body => anyHoldsReturn body
  | .ifStatement _ consequent alternate => holdsReturn consequent || holdsReturnOr alternate
  | .switchStatement _ cases => anyHoldsReturn cases
  | .tryStatement block handler finalizer =>
    holdsReturn block || holdsReturnOr handler || holdsReturnOr finalizer
  | .catchClause _ body => holdsReturn body
  | _ => false

/-- Whether a statement of a list holds a `return` of the function around it. -/
def anyHoldsReturn : List Node → Bool
  | [] => false
  | node :: nodes => holdsReturn node || anyHoldsReturn nodes

/-- `holdsReturn` for a statement that may be absent. -/
def holdsReturnOr : Option Node → Bool
  | none => false
  | some node => holdsReturn node

end

mutual

/-- Whether every `return` of a statement at the end of a function is the last statement of its
list, as are the blocks, conditions, switches and exceptions around it. A `finally` part is followed
by leaving the function, so no `return` in it is last. -/
def returnsLast : Node → Bool
  | .blockStatement body | .switchCase _ body => lastReturnsLast body
  | .ifStatement _ consequent alternate => returnsLast consequent && returnsLastOr alternate
  | .switchStatement _ cases => allReturnLast cases
  | .tryStatement block handler finalizer =>
    returnsLast block && returnsLastOr handler && !holdsReturnOr finalizer
  | .catchClause _ body => returnsLast body
  | _ => true

/-- Whether only the last statement of a list holds returns, and holds them at its own ends. -/
def lastReturnsLast : List Node → Bool
  | [] => true
  | [node] => returnsLast node
  | first :: node :: nodes => !holdsReturn first && lastReturnsLast (node :: nodes)

/-- `returnsLast` for each clause of a `switch`. -/
def allReturnLast : List Node → Bool
  | [] => true
  | node :: nodes => returnsLast node && allReturnLast nodes

/-- `returnsLast` for a statement that may be absent. -/
def returnsLastOr : Option Node → Bool
  | none => true
  | some node => returnsLast node

end

/-- The body of a function. -/
def functionBody? : Node → Option Node
  | .functionDeclaration _ _ body | .functionExpression _ _ body | .arrowFunctionExpression _ body
  | .objectMethod _ _ _ body _ => some body
  | _ => none

/-- Every `return` of every function of the tree is last. -/
def ReturnsLast (node : Node) : Prop :=
  ∀ m ∈ node.subtrees, ∀ body ∈ m.functionBody?, body.returnsLast

instance (node : Node) : Decidable node.ReturnsLast :=
  inferInstanceAs (Decidable (∀ m ∈ node.subtrees, ∀ body ∈ m.functionBody?, body.returnsLast))

end Node

namespace Rule

variable {visit : Visit} {first second : Node}

/-! ### Statements with the same forms -/

theorem startsDeclared_replace (h₁ : first.isDeclaration = false)
    (h₂ : second.isDeclaration = false) (front rest : List Node) :
    startsDeclared (front ++ first :: rest) = startsDeclared (front ++ second :: rest) := by
  cases front with
  | nil => simp [startsDeclared, h₁, h₂]
  | cons node front => rfl

/-- A statement of a list may be replaced by one with the same forms. -/
theorem splitStatements_replace (h₁ : first.isDeclaration = false)
    (h₂ : second.isDeclaration = false) (hv : visit first .value = visit second .value)
    (front rest : List Node) :
    splitStatements visit (front ++ first :: rest) =
      splitStatements visit (front ++ second :: rest) := by
  induction front with
  | nil => simp [splitStatements, h₁, h₂, hv]
  | cons node front ih =>
    -- Whether the rest opens a `let` depends on its first statement only.
    simp only [List.cons_append, splitStatements, ih, closeLet,
      startsDeclared_replace h₁ h₂ front rest]

theorem statements_replace (h₁ : first.isDeclaration = false)
    (h₂ : second.isDeclaration = false) (hv : visit first .value = visit second .value)
    (front rest : List Node) :
    statements visit (front ++ first :: rest) = statements visit (front ++ second :: rest) := by
  simp only [statements, closeLet, splitStatements_replace h₁ h₂ hv front rest,
    startsDeclared_replace h₁ h₂ front rest]

end Rule

namespace Node

/-- Wherever it stands in a block, a `return` is converted like its value as a statement. -/
theorem forms_return (scope : Scope) (front rest : List Node) (argument : Node)
    (context : Context) :
    (Node.blockStatement (front ++ .returnStatement (some argument) :: rest)).forms scope context =
      (Node.blockStatement (front ++ .expressionStatement argument [] :: rest)).forms scope
        context := by
  -- Both blocks are of one size, and the conversion of their statements is deep enough to get at
  -- the value.
  obtain ⟨depth, hdepth⟩ : ∃ depth,
      sizes (front ++ .expressionStatement argument [] :: rest) = depth + 1 :=
    Nat.exists_eq_succ_of_ne_zero (by simp [size])
  have hsame : sizes (front ++ .returnStatement (some argument) :: rest) = depth + 1 := by
    rw [← hdepth]
    simp [size, sizeOr]
  have hvalue : Rule.convert scope (depth + 1) (.returnStatement (some argument)) .value =
      Rule.convert scope (depth + 1) (.expressionStatement argument []) .value := rfl
  rw [forms, forms, size, size, hsame, hdepth, Rule.convert]
  simp only [Rule.step, Rule.statements_replace rfl rfl hvalue front rest]

/-- A script is never converted with a `return` that is not last iff it has none or holds a refused
construct: the place of a `return` is no reason to refuse a script, since a `return` has the forms
of its value wherever it stands in a block. -/
theorem toProgram_returnsLast_iff (node : Node) (h : node.IsScript) (scope : Scope) :
    ((∀ form, node.toProgram scope = .ok form → node.ReturnsLast) ↔
      node.ReturnsLast ∨ ∃ m ∈ node.subtrees, m.isRefused) ∧
    ∀ front argument rest context,
      (Node.blockStatement (front ++ .returnStatement (some argument) :: rest)).forms scope
          context =
        (Node.blockStatement (front ++ .expressionStatement argument [] :: rest)).forms scope
          context := by
  refine ⟨?_, fun front argument rest context => forms_return scope front rest argument context⟩
  constructor
  · intro hreturns
    by_cases haccepted : node.Accepted
    · obtain ⟨form, hform⟩ := (succeeds_toProgram scope h).2 haccepted
      exact .inl (hreturns form hform)
    · right
      simpa [Accepted] using haccepted
  · rintro (hlast | ⟨m, hm, hrefused⟩) form hform
    · exact hlast
    · exact absurd hrefused ((succeeds_toProgram scope h).1 ⟨form, hform⟩ m hm)

/-- The script `function f(a) { if (a) return 1; return 2; }`. -/
def guardScript : Node :=
  .program [.functionDeclaration (.identifier "f") [.identifier "a"] (.blockStatement [
    .ifStatement (.identifier "a") (.returnStatement (some (.numericLiteral "1"))) none,
    .returnStatement (some (.numericLiteral "2"))])]

/-- The form of `guardScript`, in which the value of the first `return` is dropped. -/
def guardForm : Form :=
  .program [.call "defn" [.symbol "f", .vector [.symbol "a"],
    .call "when" [.symbol "a", .number "1"], .number "2"]]

/-- The early `return` of `guardScript` is no reason to refuse it. -/
theorem toProgram_guardScript :
    guardScript.IsScript ∧ ¬guardScript.ReturnsLast ∧
      ¬∀ form, guardScript.toProgram NameSet.host.scope = .ok form → guardScript.ReturnsLast := by
  have hscript : guardScript.IsScript := ⟨rfl, by unfold Grammatical; decide⟩
  refine ⟨hscript, by decide, ?_⟩
  rw [(toProgram_returnsLast_iff _ hscript _).1]
  decide

/-- A guard that returns early is converted although what follows it is not reached. -/
theorem toProgram_guardScript_lost :
    ¬∀ (node : Node) (scope : Scope) (form : Form), node.IsScript →
      node.toProgram scope = .ok form → node.ReturnsLast := by
  intro h
  have hscript : guardScript.IsScript := ⟨rfl, by unfold Grammatical; decide⟩
  have hform : guardScript.toProgram NameSet.host.scope = .ok guardForm := rfl
  exact absurd (h guardScript _ guardForm hscript hform) (by decide)

end Node

end ScriptForms
