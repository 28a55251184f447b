/-!
# JSON documents

* `Json`: documents built from `null`, truth values, strings, arrays and objects. An object is the
  list of its fields in order.
* `Json.quote`: a string literal. The double quote and the backslash are escaped, the control
  characters below U+0020 have a short escape or `\u00xx`, and every other character stands for
  itself.
* `Json.pretty`: a document with one item per line, indented by two spaces per level.
-/

namespace ScriptForms

/-- A JSON document without numbers. -/
inductive Json where
  | null
  | bool (value : Bool)
  | str (value : String)
  | arr (items : List Json)
  | obj (fields : List (String × Json))
  deriving Inhabited

namespace Json

/-- The two hexadecimal digits of a number below 256. -/
def hexPair (n : Nat) : List Char := [Nat.digitChar (n / 16), Nat.digitChar (n % 16)]

/-- One character of a string literal. -/
def quoteChar (c : Char) : List Char :=
  if c = '"' then ['\\', '"']
  else if c = '\\' then ['\\', '\\']
  else if c = '\n' then ['\\', 'n']
  else if c = '\r' then ['\\', 'r']
  else if c = '\t' then ['\\', 't']
  else if c.toNat = 0x08 then ['\\', 'b']
  else if c.toNat = 0x0c then ['\\', 'f']
  else if c.toNat < 0x20 then ['\\', 'u', '0', '0'] ++ hexPair c.toNat
  else [c]

/-- The characters of a string literal that have a short escape, each with the letter of it. -/
def shortEscapes : List (Char × Char) :=
  [('"', '"'), ('\\', '\\'), ('\n', 'n'), ('\r', 'r'), ('\t', 't'), ('\x08', 'b'), ('\x0c', 'f')]

theorem quoteChar_of_mem_shortEscapes {c letter : Char} (h : (c, letter) ∈ shortEscapes) :
    quoteChar c = ['\\', letter] := by
  simp only [shortEscapes, List.mem_cons, Prod.mk.injEq, List.not_mem_nil, or_false] at h
  rcases h with ⟨rfl, rfl⟩ | ⟨rfl, rfl⟩ | ⟨rfl, rfl⟩ | ⟨rfl, rfl⟩ | ⟨rfl, rfl⟩ | ⟨rfl, rfl⟩ |
    ⟨rfl, rfl⟩ <;> rfl

/-- A character is printed as a short escape, as an escape of four digits, or as itself. -/
theorem quoteChar_cases (c : Char) :
    (∃ letter, (c, letter) ∈ shortEscapes ∧ quoteChar c = ['\\', letter]) ∨
      (c.toNat < 0x20 ∧ quoteChar c = ['\\', 'u', '0', '0'] ++ hexPair c.toNat) ∨
      (c ≠ '"' ∧ c ≠ '\\' ∧ quoteChar c = [c]) := by
  by_cases hshort : ∃ letter, (c, letter) ∈ shortEscapes
  · obtain ⟨letter, h⟩ := hshort
    exact .inl ⟨letter, h, quoteChar_of_mem_shortEscapes h⟩
  · have hne : ∀ special letter, (special, letter) ∈ shortEscapes → c ≠ special :=
      fun special letter hm heq => hshort ⟨letter, heq ▸ hm⟩
    have hquote : c ≠ '"' := hne _ '"' (by decide)
    have hslash : c ≠ '\\' := hne _ '\\' (by decide)
    have hback : c.toNat ≠ 0x08 := fun h => hne '\x08' 'b' (by decide) (Char.toNat_inj.1 h)
    have hform : c.toNat ≠ 0x0c := fun h => hne '\x0c' 'f' (by decide) (Char.toNat_inj.1 h)
    rw [quoteChar, if_neg hquote, if_neg hslash, if_neg (hne _ 'n' (by decide)),
      if_neg (hne _ 'r' (by decide)), if_neg (hne _ 't' (by decide)), if_neg hback, if_neg hform]
    by_cases hcontrol : c.toNat < 0x20
    · exact .inr (.inl ⟨hcontrol, if_pos hcontrol⟩)
    · exact .inr (.inr ⟨hquote, hslash, if_neg hcontrol⟩)

/-- The characters of a string literal between its quotes. -/
def quoteBody (s : List Char) : List Char := s.flatMap quoteChar

/-- A string literal. -/
def quote (s : List Char) : List Char := '"' :: quoteBody s ++ ['"']

/-- A line break followed by the indentation of a level. -/
def newline (level : Nat) : List Char := '\n' :: List.replicate (2 * level) ' '

mutual

/-- A document as text, nested `level` deep. -/
def prettyAt (level : Nat) : Json → List Char
  | .null => "null".toList
  | .bool value => (if value then "true" else "false").toList
  | .str value => quote value.toList
  | .arr [] => ['[', ']']
  | .arr (item :: items) =>
    '[' :: newline (level + 1) ++ prettyAt (level + 1) item ++ prettyItems (level + 1) items ++
      newline level ++ [']']
  | .obj [] => ['\x7b', '\x7d']
  | .obj ((key, value) :: fields) =>
    '\x7b' :: newline (level + 1) ++ quote key.toList ++ [':', ' '] ++ prettyAt (level + 1) value ++
      prettyFields (level + 1) fields ++ newline level ++ ['\x7d']

/-- The items of an array after its first. -/
def prettyItems (level : Nat) : List Json → List Char
  | [] => []
  | item :: items => ',' :: newline level ++ prettyAt level item ++ prettyItems level items

/-- The fields of an object after its first. -/
def prettyFields (level : Nat) : List (String × Json) → List Char
  | [] => []
  | (key, value) :: fields =>
    ',' :: newline level ++ quote key.toList ++ [':', ' '] ++ prettyAt level value ++
      prettyFields level fields

end

/-- A document as text, one item per line. -/
def pretty (document : Json) : String := String.ofList (prettyAt 0 document)

end Json

end ScriptForms
