/-!
# Lexemes

A `Lexeme` measures a class of texts: it gives the length of the text of the class that an input
starts with. Lexemes are put together by sequence, option, choice and repetition.
-/

namespace ScriptForms

/-- A class of texts: the length of the text of the class at the front of an input. -/
abbrev Lexeme := List Char → Option Nat

namespace Lexeme

/-- One character with a property. -/
def char (p : Char → Bool) : Lexeme
  | c :: _ => if p c then some 1 else none
  | [] => none

/-- A fixed text. -/
def text (s : String) : Lexeme := fun input =>
  if s.toList.isPrefixOf input then some s.toList.length else none

/-- One text after another. -/
def seq (first second : Lexeme) : Lexeme := fun input => do
  let n ← first input
  let m ← second (input.drop n)
  return n + m

/-- A text that may be absent. -/
def opt (lexeme : Lexeme) : Lexeme := fun input => some ((lexeme input).getD 0)

/-- The longest of several texts. -/
def longest (lexemes : List Lexeme) : Lexeme := fun input =>
  (lexemes.filterMap fun lexeme => lexeme input).max?

/-- The length of the texts in a row, of which there are no more than items of `bound`. -/
def runWithin (lexeme : Lexeme) : (bound : List Char) → List Char → Nat
  | [], _ => 0
  | _ :: bound, input =>
    match lexeme input with
    | none => 0
    | some n => n + runWithin lexeme bound (input.drop n)

/-- Any number of texts in a row. No text is empty, so the input itself is bound enough. -/
def many (lexeme : Lexeme) : Lexeme := fun input => some (runWithin lexeme input input)

/-- At least one text in a row. -/
def many1 (lexeme : Lexeme) : Lexeme := lexeme.seq lexeme.many

/-- Exactly `count` texts in a row. -/
def times (lexeme : Lexeme) : (count : Nat) → Lexeme
  | 0 => fun _ => some 0
  | count + 1 => lexeme.seq (lexeme.times count)

/-- Between one text and `count` texts in a row. -/
def atMost (lexeme : Lexeme) (count : Nat) : Lexeme := fun input =>
  match runWithin lexeme (input.take count) input with
  | 0 => none
  | n => some n

end Lexeme

end ScriptForms
