import ScriptForms.Lowering.Expression
import ScriptForms.Lowering.Statement
import ScriptForms.Source.Comment

/-!
# Programs

* `lower`: the rules tied together, up to a depth of nesting.
* `program`: the program of a concrete tree, with the warnings that reading it gives.
* `Reader.read`: the program of a source.

The comments directly above an expression statement at the top of a program belong to that
statement. A comment on the line where a statement ends is dropped; comments above any other
statement are dropped with a warning.
-/

namespace ScriptForms

/-- A comment that is dropped: the kind of the statement below it and the line of that statement. -/
structure Warning where
  kind : String
  line : Nat
  deriving DecidableEq, Inhabited

/-- The wording of a warning. -/
def Warning.message (warning : Warning) : String :=
  "dropping comment above " ++ warning.kind ++ " on line " ++ toString warning.line

/-- What is read of a source: its program, and the warnings on the way. -/
structure Reading where
  program : Except ParseError Node
  warnings : List Warning := []

namespace Lowering

variable (source : List Char)

/-- The syntax tree of a concrete tree, given those of smaller trees. What has no rule is kept as
its text. -/
def step (lower : Lower) : Lower := fun tree =>
  match statementRule? source lower tree.kind <|> expressionRule? source lower tree.kind with
  | some rule => rule tree
  | none => return unsupported source tree

/-- The syntax tree of a concrete tree that is nested no deeper than the given depth. -/
def lowerWithin : (depth : Nat) → Lower
  | 0 => fun _ => .error .noTree
  | depth + 1 => step source (lowerWithin depth)

/-- The syntax tree of a concrete tree. Every rule looks at smaller trees only, so the size of the
tree is depth enough. -/
def lower : Lower := fun tree => lowerWithin source tree.size tree

/-! ### Statements and comments at the top -/

/-- The warnings about comments in front of a statement that cannot have them. -/
def droppedComments (pending : List String) (node : Node) (line : Nat) : List Warning :=
  if pending.isEmpty then [] else [⟨node.kind, line⟩]

/-- The statements at the top of a program with their comments, and the warnings. `pending` are the
comment lines above the next statement, and `lastRow` is the row where the last statement ended. -/
def topStatements (pending : List String) (lastRow : Option Nat) :
    List Tree → Except ParseError (List Node) × List Warning
  | [] => (.ok [], [])
  | tree :: rest =>
    match tree.kind with
    | "comment" =>
      if lastRow = some (Tree.row source tree.start) then topStatements pending lastRow rest
      else topStatements (pending ++ Source.commentLines (tree.text source)) lastRow rest
    | "hash_bang_line" => topStatements pending lastRow rest
    | _ =>
      match lower source tree with
      | .error cause => (.error cause, [])
      | .ok node =>
        let (others, warnings) := topStatements [] (some (Tree.row source tree.stop)) rest
        match node with
        | .expressionStatement expression _ =>
          (others.map (.expressionStatement expression pending :: ·), warnings)
        | _ => (others.map (node :: ·), droppedComments pending node (tree.line source) ++ warnings)

/-- The program of a concrete tree. -/
def program (root : Tree) : Reading :=
  let (body, warnings) := topStatements source [] none (root.children.filter (·.isNamed))
  ⟨body.map .program, warnings⟩

/-! ### Sources -/

/-- The most characters of a fault that an error shows. -/
def shownLength : Nat := 40

/-- What is found at a fault: a token that is missing, or the first line of a text that is not
expected. -/
def found (fault : Tree) : String :=
  if fault.isMissing then "missing " ++ "`" ++ fault.kind ++ "`"
  else
    let line := (Text.splitLines (fault.text source)).head?.getD []
    "unexpected " ++ "`" ++ String.ofList (line.take shownLength) ++ "`"

/-- The error for a fault. -/
def invalid (fault : Tree) : ParseError :=
  .invalid (fault.line source) (fault.column source) (found source fault)

end Lowering

/-- Reads a source: there is a program if the concrete tree has no fault and its nodes have the
parts that the rules need. -/
def Reader.read (reader : Reader) (source : String) : Reading :=
  match reader source with
  | none => ⟨.error .noTree, []⟩
  | some root =>
    match root.firstFault? with
    | some fault => ⟨.error (Lowering.invalid source.toList fault), []⟩
    | none => Lowering.program source.toList root

end ScriptForms
