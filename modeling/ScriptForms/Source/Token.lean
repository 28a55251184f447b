import ScriptForms.Source.Semicolon
import ScriptForms.Text.Parser
import ScriptForms.Tree.Basic

/-!
# The tokens of a script

Blanks and comments are read before a token, so that a cursor always stands directly behind a token
and the text between two cursors is the text of a construct.

* `symbol`, `word`, `keyword`: tokens.
* `construct`, `leaf`: a construct as a node of a concrete tree.
* `semicolon`, `gap`: the end of a statement, and the way to the next token of the same statement.

A comment in the style of HTML is a node of the tree, unlike other comments. It is kept where it is
read; where it belongs in the tree is found out at the end.
-/

namespace ScriptForms.Source

/-! ### Tokens -/

/-- A comment in the style of HTML, which is kept, with the blanks and comments behind it. -/
def keepMarkup : Parser Unit := do
  let cursor ← get
  discard (exactly markup)
  modify fun stop => { stop with kept := (cursor.offset, stop.offset) :: stop.kept }
  discard (exactly trivia)

/-- Blanks and comments. Where an operator or the end of a statement can stand, there are no
comments in the style of HTML. -/
def skip : Parser Unit := do
  discard (exactly trivia)
  if !(← get).isBarred then discard (Parser.many keepMarkup)

/-- The place of the next token. -/
def start : Parser Cursor := do
  skip
  get

/-- A text of a class, after blanks and comments. -/
def token (lexeme : Lexeme) : Parser (List Char) := skip *> exactly lexeme <* Parser.unbar

/-- Any punctuation. -/
def punctuator : Parser String := do
  skip
  let cursor ← get
  match punctuator? cursor.rest with
  | some s =>
    set { cursor.advance s.toList.length with isBarred := false }
    return s
  | none => failure

/-- The given punctuation. -/
def symbol (s : String) : Parser Unit := do
  guard ((← punctuator) = s)

/-- One of the given characters, whatever follows it. -/
def char (c : Char) : Parser Unit := discard (token (Lexeme.char (· == c)))

/-- A name or a keyword. -/
def word : Parser String := String.ofList <$> token name

/-- The given keyword. -/
def keyword (s : String) : Parser Unit := do
  guard ((← word) = s)

/-! ### Nodes -/

/-- The offset of the next token. -/
def place : Parser Nat := return (← start).offset

/-- The node of a rule, from an offset up to the cursor. -/
def nodeFrom (start : Nat) (kind : String) (children : List Tree) : Parser Tree :=
  return { kind, start, stop := (← get).offset, children }

/-- The node of a rule with the nodes that are read below it. -/
def construct (kind : String) (children : Parser (List Tree)) : Parser Tree := do
  let start ← place
  nodeFrom start kind (← children)

/-- The node of a rule, of which nothing but the text is kept. -/
def leaf {α : Type} (kind : String) (p : Parser α) : Parser Tree :=
  construct kind (p *> pure [])

/-- The node of a rule whose text stands directly at the cursor. -/
def leafHere (kind : String) (lexeme : Lexeme) : Parser Tree := do
  let cursor ← get
  discard (exactly lexeme)
  nodeFrom cursor.offset kind []

/-- A comment in the style of HTML directly at the cursor. -/
def markupComment : Parser Tree := do
  guard !(← get).isBarred
  leafHere "html_comment" markup

/-- A token without a rule. -/
def mark (p : Parser String) : Parser Tree := do
  let start ← place
  let kind ← p
  return { kind, isNamed := false, start, stop := (← get).offset }

/-- The given keyword, as a token without a rule. -/
def keywordMark (s : String) : Parser Tree := mark (keyword s *> pure s)

/-- The node under a field. -/
def under (field : String) (p : Parser Tree) : Parser Tree := (·.under field) <$> p

/-- A name. -/
def identifier : Parser Tree := leaf "identifier" word

/-! ### The end of a statement -/

/-- A comment after blanks. -/
def commentAhead : Parser Unit := discard (exactly spaces *> exactly comment)

/-- Reads up to the place where a semicolon is inserted, over no more comments than there are items
of `bound`. -/
def insertedWithin (clear : Bool) : (bound : List Char) → Parser Unit
  | [] => do guard (isInserted clear (← get).rest)
  | _ :: bound => do
    if isInserted clear (← get).rest then return
    commentAhead
    insertedWithin clear bound

/-- A semicolon that is left out. With `clear` no operator can follow here. -/
def insertedSemicolon (clear : Bool) : Parser Unit := do
  insertedWithin clear (← get).rest

/-- The semicolon of a statement, written or left out. -/
def semicolon (clear : Bool) : Parser Unit := do
  Parser.bar
  insertedSemicolon clear <|> symbol ";"
  Parser.unbar

/-- A semicolon that belongs to a construct if it is left out behind it. -/
def trailingSemicolon (clear : Bool) : Parser Unit :=
  (insertedSemicolon clear *> Parser.unbar) <|> Parser.bar

/-- Goes on with a statement where a semicolon may be left out: there is none here. -/
def goOn (clear : Bool) : Parser Unit := do
  Parser.bar
  (insertedSemicolon clear).notAhead

/-- Blanks and comments up to the next token of the same construct, which can be an operator. With
`ends` a semicolon may be left out here, and then there must be none before that token. -/
def gap (ends : Bool) : Parser Unit := do
  if ends then goOn false else Parser.bar
  skip

end ScriptForms.Source
