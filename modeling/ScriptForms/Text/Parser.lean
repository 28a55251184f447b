import ScriptForms.Text.Lexeme

/-!
# Parsers

A `Parser` reads from a `Cursor`, a place in a text, and either fails or gives a value and the place
behind what it read. A choice that fails is taken back.

* `Parser.many`, `Parser.iterate`: repetition, bounded by the length of the input.
* `Parser.test`: looking ahead.
* `Parser.separated`, `Parser.sparse`: lists with separators.
* `Parser.bar`, `Parser.unbar`: whether something is kept in front of the next token.
* `exactly`: a text of a class.
-/

namespace ScriptForms

/-- A place in a text: the number of characters before it and the characters after it. -/
structure Cursor where
  offset : Nat
  rest : List Char
  /-- The parts of the text that were read between tokens and are kept, the last one first. -/
  kept : List (Nat × Nat) := []
  /-- Whether nothing is kept that stands in front of the next token. -/
  isBarred : Bool := false
  deriving Inhabited

namespace Cursor

/-- The place `n` characters further on. -/
def advance (cursor : Cursor) (n : Nat) : Cursor :=
  { cursor with offset := cursor.offset + n, rest := cursor.rest.drop n }

end Cursor

/-- A reader of text. -/
abbrev Parser := StateT Cursor Option

namespace Parser

variable {α β : Type}

/-- Repetitions, no more than there are items of `bound`. -/
def manyWithin (p : Parser α) : (bound : List Char) → Parser (List α)
  | [] => pure []
  | _ :: bound => (do
      let first ← p
      let others ← manyWithin p bound
      return first :: others) <|> pure []

/-- Any number of repetitions. Each one reads something, so the input itself is bound enough. -/
def many (p : Parser α) : Parser (List α) := do
  p.manyWithin (← get).rest

/-- Repeats a step on a value for as long as it succeeds, no more often than there are items of
`bound`. -/
def iterateWithin (step : α → Parser α) : (bound : List Char) → α → Parser α
  | [], value => pure value
  | _ :: bound, value => (do
      let next ← step value
      iterateWithin step bound next) <|> pure value

/-- Repeats a step on a value for as long as it succeeds. -/
def iterate (step : α → Parser α) (value : α) : Parser α := do
  iterateWithin step (← get).rest value

/-- Keeps nothing in front of the next token. -/
def bar : Parser Unit := modify fun cursor => { cursor with isBarred := true }

/-- Keeps what is kept in front of the next token. -/
def unbar : Parser Unit := modify fun cursor => { cursor with isBarred := false }

/-- A value that may be absent. -/
def option (p : Parser α) : Parser (Option α) := (some <$> p) <|> pure none

/-- Whether something can be read here; nothing is read. -/
def test (p : Parser α) : Parser Bool := do
  let cursor ← get
  return (p.run cursor).isSome

/-- Nothing, where something can be read. -/
def ahead (p : Parser α) : Parser Unit := do
  guard (← p.test)

/-- Nothing, where something cannot be read. -/
def notAhead (p : Parser α) : Parser Unit := do
  guard !(← p.test)

/-- At least one value, with a separator between any two. -/
def separated1 (p : Parser α) (separator : Parser β) : Parser (List α) := do
  let first ← p
  let others ← Parser.many (separator *> p)
  return first :: others

/-- Any number of values, with a separator between any two. -/
def separated (p : Parser α) (separator : Parser β) : Parser (List α) :=
  p.separated1 separator <|> pure []

/-- Values with separators, where any value may be left out. -/
def sparse (p : Parser α) (separator : Parser β) : Parser (List α) := do
  let first ← p.option
  let others ← Parser.many (separator *> p.option)
  return (first :: others).filterMap id

end Parser

/-- A text of a class, directly at the cursor. -/
def exactly (lexeme : Lexeme) : Parser (List Char) := do
  let cursor ← get
  match lexeme cursor.rest with
  | some n =>
    set (cursor.advance n)
    return cursor.rest.take n
  | none => failure

end ScriptForms
