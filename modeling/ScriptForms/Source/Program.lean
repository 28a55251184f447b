import ScriptForms.Source.Statement

/-!
# Programs

* `grammar`: the rules tied together, up to a depth of nesting.
* `program`: a whole source.
* `reader`: the concrete tree of a source.
-/

namespace ScriptForms.Source

/-- The grammar of what is nested no deeper than the given depth. -/
def grammar : (depth : Nat) → Grammar
  | 0 => {
      expression := fun _ => failure
      operand := fun _ => failure
      chain := fun _ => failure
      statement := fun _ => failure
      pattern := failure
      element := failure
      construction := fun _ => failure }
  | depth + 1 => {
      expression := fun ends => expressionRule (grammar depth) ends
      operand := fun ends => operandRule (grammar depth) ends
      chain := fun ends => chainRule (grammar depth) ends
      statement := fun inClauses => statementRule (grammar depth) inClauses
      pattern := fun cursor => patternRule (grammar depth) cursor
      element := fun cursor => elementRule (grammar depth) cursor
      construction := fun ends => constructionRule (grammar depth) ends }

/-- The depth that any construct of a given length stays within. -/
def depthBound (length : Nat) : Nat := 3 * length + 8

/-! ### Whole sources -/

/-- A comment at the top of a program. -/
def commentItem : Parser Tree := do
  discard (exactly spaces)
  leafHere "comment" comment

/-- A statement at the top of a program, or a comment in the style of HTML. -/
def statementItem (g : Grammar) : Parser Tree := do
  discard (exactly spaces)
  markupComment <|> g.statement false

/-- The line before a program that names its interpreter. -/
def interpreterLine : Parser Tree :=
  leaf "hash_bang_line" (token (.text "#!") *> exactly (Lexeme.char (· != '\n')).many)

/-- The node of a comment in the style of HTML from one offset up to another one. -/
def markupTree (start stop : Nat) : Tree := { kind := "html_comment", start, stop }

/-- A program, up to the end of the source. -/
def program (g : Grammar) : Parser Tree := do
  let before ← Parser.many commentItem
  let line ← interpreterLine.option
  let after ← Parser.many (commentItem <|> statementItem g)
  skip
  guard (← get).rest.isEmpty
  let root ← nodeFrom 0 "program" (before ++ line.toList ++ after)
  return (← get).kept.foldl (fun tree (start, stop) => Tree.insert (markupTree start stop) tree) root

/-- Reads a source. A source that does not follow the grammar is one fault. No text of the grammar
holds U+0000. -/
def reader : Reader := fun source =>
  let text := source.toList
  let fault : Tree := { kind := Tree.faultKind, start := 0, stop := text.length }
  if text.contains '\x00' then some fault
  else
    match (program (grammar (depthBound text.length))).run { offset := 0, rest := text } with
    | some (root, _) => some root
    | none => some fault

end ScriptForms.Source
