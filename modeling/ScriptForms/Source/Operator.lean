import ScriptForms.Source.Token

/-!
# Binary operators

An operation is read as a flat row of operands with operators between them; `operationsTree` then
builds the tree from the strength of the operators. Operators of equal strength group to the left,
only `**` groups to the right.
-/

namespace ScriptForms.Source

/-- The way an operand is written, as far as an assignment can tell. -/
inductive Shape where
  /-- A name. -/
  | name
  /-- The constant `undefined`, which is written like a name. -/
  | undefined
  /-- An access to a property or an element. -/
  | access
  /-- An expression in parentheses. -/
  | group
  /-- An array or object literal. -/
  | literal
  /-- A private name, which can stand only before `in`. -/
  | hidden
  | other
  deriving DecidableEq, Inhabited

/-- An operand: its tree and the way it is written. -/
structure Operand where
  tree : Tree
  shape : Shape := .other
  deriving Inhabited

/-- The binary operators with their strengths. -/
def binaryOperators : List (String × Nat) := [
  ("??", 1), ("||", 2), ("&&", 3), ("|", 4), ("^", 5), ("&", 6),
  ("==", 7), ("!=", 7), ("===", 7), ("!==", 7),
  ("<", 8), ("<=", 8), (">", 8), (">=", 8), ("in", 8), ("instanceof", 8),
  ("<<", 9), (">>", 9), (">>>", 9), ("+", 10), ("-", 10), ("*", 11), ("/", 11), ("%", 11),
  ("**", 12)]

/-- The strength of a binary operator. -/
def strength (operator : String) : Nat := (binaryOperators.lookup operator).getD 0

/-- Whether operators of the same strength group to the right. -/
def groupsRight (operator : String) : Bool := operator == "**"

/-- The tree of an operator and its operands. -/
def operationTree (operator left right : Tree) : Tree where
  kind := "binary_expression"
  start := left.start
  stop := right.stop
  children := [left.under "left", operator.under "operator", right.under "right"]

/-- The operators that have been read and wait for their right operand to be complete, the last one
first, each with its left operand. -/
abbrev Waiting := List (Tree × Tree)

/-- Completes the waiting operators that bind at least as strongly as the next operator. -/
def complete (next : String) : Waiting → Tree → Waiting × Tree
  | [], tree => ([], tree)
  | (left, operator) :: waiting, tree =>
    if strength next < strength operator.kind ∨
        (strength next = strength operator.kind ∧ ¬groupsRight operator.kind) then
      complete next waiting (operationTree operator left tree)
    else ((left, operator) :: waiting, tree)

/-- The tree of the waiting operators, the last operand and the operators that follow it. -/
def operationsTree (waiting : Waiting) (last : Tree) : List (Tree × Tree) → Tree
  | [] => waiting.foldl (fun right (left, operator) => operationTree operator left right) last
  | (operator, tree) :: rest =>
    let (waiting, left) := complete operator.kind waiting last
    operationsTree ((left, operator) :: waiting) tree rest

/-- Whether every private name in a row stands before an `in` that takes it as its left operand. -/
def hiddenNamesFit (before : Nat) (operand : Operand) : List (Tree × Operand) → Bool
  | [] => operand.shape != .hidden
  | (operator, next) :: rest =>
    (operand.shape != .hidden || (operator.kind == "in" && before < strength operator.kind)) &&
      hiddenNamesFit (strength operator.kind) next rest

/-- A binary operator. -/
def binaryOperator : Parser Tree := do
  let operator ← mark (punctuator <|> word)
  guard (binaryOperators.any fun entry => entry.1 == operator.kind)
  return operator

/-- The operators that assign. -/
def assignmentOperators : List String := [
  "=", "+=", "-=", "*=", "/=", "%=", "^=", "&=", "|=", ">>=", ">>>=", "<<=", "**=", "&&=", "||=",
  "??="]

/-- An operator that assigns. -/
def assignmentOperator : Parser Tree := do
  let operator ← mark punctuator
  guard (assignmentOperators.contains operator.kind)
  return operator

end ScriptForms.Source
