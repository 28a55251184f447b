import ScriptForms.Node.Basic

/-!
# Branches and clauses

* `Node.branches`: the branches of an `if` / `else if` / `else` chain in order.
* `Node.leadingDeclarations`: a statement list cut after its leading variable declarations.
* `Node.endsWithExit`, `Node.clauseBody`, `Node.containsBreak`: how the statements of a `switch`
  clause leave it.
-/

namespace ScriptForms.Node

/-- A branch of a chain of conditions; the final `else` has no test. -/
structure Branch where
  test : Option Node
  body : Node
  deriving Inhabited

mutual

/-- The branches of a chain of conditions in order. -/
def branches : Node → List Branch
  | .ifStatement test consequent alternate => ⟨some test, consequent⟩ :: branchesOr alternate
  | node => [⟨none, node⟩]

/-- The branches of an `else` part. -/
def branchesOr : Option Node → List Branch
  | none => []
  | some node => branches node

end

/-- A statement list as its leading run of variable declarations and the rest. -/
def leadingDeclarations (body : List Node) : List Node × List Node :=
  (body.takeWhile isDeclaration, body.dropWhile isDeclaration)

mutual

/-- Whether a statement leaves the list it ends, looking into a block. -/
def isExit : Node → Bool
  | .breakStatement | .returnStatement _ | .throwStatement _ => true
  | .blockStatement body => endsWithExit body
  | _ => false

/-- Whether a statement list ends by leaving it. -/
def endsWithExit : List Node → Bool
  | [] => false
  | [node] => isExit node
  | _ :: node :: nodes => endsWithExit (node :: nodes)

end

mutual

/-- A statement at the end of a list, with a block opened up. -/
def openBlock : Node → List Node
  | .blockStatement body => openLastBlock body
  | node => [node]

/-- A statement list with the block at its end opened up, as long as it ends in one. -/
def openLastBlock : List Node → List Node
  | [] => []
  | node :: nodes =>
    match openLastBlock nodes with
    | [] => openBlock node
    | opened => node :: opened

end

/-- Whether a node is a `break`. -/
def isBreak : Node → Bool
  | .breakStatement => true
  | _ => false

/-- The statements of a `switch` clause: a block at its end is opened up, and a final `break` is
dropped. -/
def clauseBody (consequent : List Node) : List Node :=
  let statements := openLastBlock consequent
  if statements.getLast?.any isBreak then statements.dropLast else statements

mutual

/-- Whether a statement holds a `break` that leaves the enclosing `switch`. Loops, inner `switch`
statements and functions own their breaks. -/
def breaksOut : Node → Bool
  | .breakStatement => true
  | .blockStatement body => containsBreak body
  | .ifStatement _ consequent alternate => breaksOut consequent || breaksOutOr alternate
  | .tryStatement block handler finalizer =>
    breaksOut block || breaksOutOr handler || breaksOutOr finalizer
  | .catchClause _ body => breaksOut body
  | _ => false

/-- Whether a statement list holds a `break` that leaves the enclosing `switch`. -/
def containsBreak : List Node → Bool
  | [] => false
  | node :: nodes => breaksOut node || containsBreak nodes

/-- `breaksOut` for a statement that may be absent. -/
def breaksOutOr : Option Node → Bool
  | none => false
  | some node => breaksOut node

end

end ScriptForms.Node
