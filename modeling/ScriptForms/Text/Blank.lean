/-!
# White space and lines

* `isBlank`: the Unicode property `White_Space`.
* `trimStart`, `trimEnd`, `trim`: text without its outer white space.
* `splitLines`: the lines of a text. A line feed ends a line, a carriage return directly before it
  belongs to the line end, and a last line without a line feed is kept as it is.
-/

namespace ScriptForms.Text

/-- The characters with the Unicode property `White_Space`. -/
def isBlank (c : Char) : Bool :=
  let n := c.toNat
  (0x09 ≤ n && n ≤ 0x0d) || n == 0x20 || n == 0x85 || n == 0xa0 || n == 0x1680 ||
    (0x2000 ≤ n && n ≤ 0x200a) || n == 0x2028 || n == 0x2029 || n == 0x202f || n == 0x205f ||
    n == 0x3000

/-- Text without its leading white space. -/
def trimStart (s : List Char) : List Char := s.dropWhile isBlank

/-- Text without its trailing white space. -/
def trimEnd (s : List Char) : List Char := (s.reverse.dropWhile isBlank).reverse

/-- Text without its leading and trailing white space. -/
def trim (s : List Char) : List Char := trimEnd (trimStart s)

/-- Splits into lines; `line` holds the characters of the current line, last one first. -/
def splitLinesFrom (line : List Char) : List Char → List (List Char)
  | [] => if line.isEmpty then [] else [line.reverse]
  | c :: rest =>
    if c = '\n' then
      (if line.head? = some '\r' then line.tail else line).reverse :: splitLinesFrom [] rest
    else splitLinesFrom (c :: line) rest

/-- The lines of a text, without their line ends. -/
def splitLines (s : List Char) : List (List Char) := splitLinesFrom [] s

/-- The number of bytes of a text in UTF-8. -/
def utf8Length : List Char → Nat
  | [] => 0
  | c :: rest => c.utf8Size + utf8Length rest

@[simp] theorem utf8Length_nil : utf8Length [] = 0 := rfl

@[simp] theorem utf8Length_cons (c : Char) (s : List Char) :
    utf8Length (c :: s) = c.utf8Size + utf8Length s := rfl

@[simp] theorem utf8Length_append (s t : List Char) :
    utf8Length (s ++ t) = utf8Length s + utf8Length t := by
  induction s with
  | nil => simp
  | cons c s ih => simp [ih, Nat.add_assoc]

end ScriptForms.Text
