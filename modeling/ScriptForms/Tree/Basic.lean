import ScriptForms.Text.Blank

/-!
# Concrete syntax trees

A grammar gives a `Tree` for a source. A node of it covers a part of the source; it is made by a
rule, which is then its kind, or it is a token without a rule, whose kind is its text. A node may
stand under a field of the node above it.

* `Tree.text`, `Tree.line`, `Tree.column`: the part of a source that a node covers.
* `Tree.child?`, `Tree.childrenAt`, `Tree.named`, `Tree.content`, `Tree.hasToken`: the nodes
  directly below a node.
* `Tree.firstFault?`: the first place where a source does not follow the grammar.
-/

namespace ScriptForms

/-- A node of a concrete syntax tree. Offsets count the characters from the start of the source. -/
structure Tree where
  /-- The rule of the node, or the text of a token without a rule. -/
  kind : String
  /-- Whether the node is made by a rule. -/
  isNamed : Bool := true
  /-- Whether the node stands for a token that the source lacks. -/
  isMissing : Bool := false
  /-- The field of the node above. -/
  field? : Option String := none
  start : Nat
  stop : Nat
  children : List Tree := []
  deriving Inhabited

namespace Tree

/-! ### Sizes and subtrees -/

mutual

/-- The number of nodes of a tree. -/
def size : Tree → Nat
  | ⟨_, _, _, _, _, _, children⟩ => sizes children + 1

/-- The number of nodes of several trees. -/
def sizes : List Tree → Nat
  | [] => 0
  | tree :: trees => tree.size + sizes trees

end

mutual

/-- The nodes of a tree, each one before the nodes below it. -/
def subtrees : Tree → List Tree
  | ⟨kind, isNamed, isMissing, field?, start, stop, children⟩ =>
    ⟨kind, isNamed, isMissing, field?, start, stop, children⟩ :: subtreesAll children

/-- The nodes of several trees. -/
def subtreesAll : List Tree → List Tree
  | [] => []
  | tree :: trees => tree.subtrees ++ subtreesAll trees

end

/-! ### Texts and places -/

/-- The characters of a source that a node covers. -/
def text (source : List Char) (tree : Tree) : List Char :=
  (source.drop tree.start).take (tree.stop - tree.start)

/-- The number of line feeds before an offset of a source. -/
def row (source : List Char) (offset : Nat) : Nat := (source.take offset).count '\n'

/-- The line where a node starts, counted from one. -/
def line (source : List Char) (tree : Tree) : Nat := row source tree.start + 1

/-- The number of bytes in front of a node on its line, and one. -/
def column (source : List Char) (tree : Tree) : Nat :=
  Text.utf8Length ((source.take tree.start).reverse.takeWhile (· ≠ '\n')) + 1

/-! ### Children -/

/-- The node under a field of the node above. -/
def under (tree : Tree) (field : String) : Tree := { tree with field? := some field }

/-- The first node below a node that stands under a field. -/
def child? (tree : Tree) (field : String) : Option Tree :=
  tree.children.find? fun child => child.field? == some field

/-- The nodes below a node that stand under a field. -/
def childrenAt (tree : Tree) (field : String) : List Tree :=
  tree.children.filter fun child => child.field? == some field

/-- The nodes below a node that are made by rules, without comments. -/
def named (tree : Tree) : List Tree :=
  tree.children.filter fun child => child.isNamed && child.kind != "comment"

/-- The nodes between the tags of an element that are made by rules, without comments. -/
def content (tree : Tree) : List Tree :=
  let behindOpening := tree.children.eraseP (·.field? == some "open_tag")
  let children := behindOpening.eraseP (·.field? == some "close_tag")
  children.filter fun child => child.isNamed && child.kind != "comment"

/-- Whether a token without a rule stands directly below a node. -/
def hasToken (tree : Tree) (token : String) : Bool :=
  tree.children.any fun child => !child.isNamed && child.kind == token

/-! ### Nodes that can stand anywhere -/

mutual

/-- A tree with one more node, below the innermost node around it. -/
def insert (extra : Tree) : Tree → Tree
  | ⟨kind, isNamed, isMissing, field?, start, stop, children⟩ =>
    ⟨kind, isNamed, isMissing, field?, start, stop, insertAmong extra children⟩

/-- Trees with one more node among them or below the one around it. -/
def insertAmong (extra : Tree) : List Tree → List Tree
  | [] => [extra]
  | tree :: trees =>
    if tree.stop ≤ extra.start then tree :: insertAmong extra trees
    else if extra.stop ≤ tree.start then extra :: tree :: trees
    else insert extra tree :: trees

end

/-! ### Faults -/

/-- The kind of a part of a source that does not follow the grammar. -/
def faultKind : String := "ERROR"

/-- Whether a node does not follow the grammar: what it covers has no rule, or it is missing. -/
def isFault (tree : Tree) : Bool := tree.kind == faultKind || tree.isMissing

/-- The first node that does not follow the grammar. -/
def firstFault? (tree : Tree) : Option Tree := tree.subtrees.find? isFault

end Tree

/-- What reads a source by a grammar. It gives a tree even where the source does not follow the
grammar, or nothing at all. -/
abbrev Reader := String → Option Tree

end ScriptForms
