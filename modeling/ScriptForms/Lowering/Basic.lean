import ScriptForms.Node.Basic
import ScriptForms.Source.Escape
import ScriptForms.Tree.Basic

/-!
# From concrete trees to syntax trees

A rule takes a concrete tree of one kind to a syntax tree. It receives the syntax trees of what lies
deeper through a function of type `Lower`, so that each rule is a plain function; the rules are tied
together elsewhere. A rule takes the parts of a tree from its fields or from the nodes below it, and
fails if a part is not there.

* `ParseError`: why a source has no syntax tree.
* `field`, `firstNamed`: a part that a rule needs.
* `lowerAt`, `lowerAt?`, `lowerFirst`, `lowerNamed`: the syntax trees of parts.
-/

namespace ScriptForms

/-- Why a source has no syntax tree. -/
inductive ParseError where
  /-- There is no concrete tree. -/
  | noTree
  /-- A part of the source does not follow the grammar. -/
  | invalid (line column : Nat) (found : String)
  /-- A node lacks a part that its rule needs. -/
  | missingField (kind part : String) (line column : Nat)
  deriving DecidableEq, Inhabited

namespace Lowering

/-- The syntax trees of concrete trees. -/
abbrev Lower := Tree → Except ParseError Node

variable (source : List Char) (lower : Lower)

/-- The text of a node. -/
def textOf (tree : Tree) : String := String.ofList (tree.text source)

/-- The name that a node spells. -/
def nameOf (tree : Tree) : Node := .identifier (textOf source tree)

/-- A node that has no place in a syntax tree, kept as its text. -/
def unsupported (tree : Tree) : Node := .unsupported tree.kind (textOf source tree)

/-- The value of a node in quotes. -/
def valueOf (tree : Tree) : String := Source.stringValue (tree.text source)

/-! ### Parts -/

/-- The error of a node that lacks a part. -/
def lacking (tree : Tree) (part : String) : ParseError :=
  .missingField tree.kind part (tree.line source) (tree.column source)

/-- The node under a field. -/
def field (tree : Tree) (name : String) : Except ParseError Tree :=
  match tree.child? name with
  | some child => .ok child
  | none => .error (lacking source tree name)

/-- The first node below a node; `part` says what it is in an error. -/
def firstNamed (tree : Tree) (part : String) : Except ParseError Tree :=
  match tree.named with
  | child :: _ => .ok child
  | [] => .error (lacking source tree part)

/-- The syntax tree of what stands under a field. -/
def lowerAt (name : String) (tree : Tree) : Except ParseError Node := do
  lower (← field source tree name)

/-- The syntax tree of what stands under a field, if there is anything. -/
def lowerAt? (name : String) (tree : Tree) : Except ParseError (Option Node) :=
  (tree.child? name).mapM lower

/-- The syntax tree of the first node below a node. -/
def lowerFirst (part : String) (tree : Tree) : Except ParseError Node := do
  lower (← firstNamed source tree part)

/-- The syntax tree of the first node below a node, if there is any. -/
def lowerFirst? (tree : Tree) : Except ParseError (Option Node) := tree.named.head?.mapM lower

/-- The syntax trees of the nodes below a node. -/
def lowerNamed (tree : Tree) : Except ParseError (List Node) := tree.named.mapM lower

/-! ### Names and parameters -/

/-- A parameter: a name, or a pattern or default kept as its text. -/
def param (tree : Tree) : Node :=
  match tree.kind with
  | "identifier" => nameOf source tree
  | _ => unsupported source tree

/-- The parameters of a function. -/
def params (tree : Tree) : Except ParseError (List Node) := do
  return (← field source tree "parameters").named.map (param source)

/-- The name of an export, a word or a string. -/
def exportName (tree : Tree) : String :=
  match tree.kind with
  | "string" => valueOf source tree
  | _ => textOf source tree

/-- The key of a member, and whether it is computed. -/
def propertyKey (tree : Tree) : Except ParseError (Node × Bool) :=
  match tree.kind with
  | "property_identifier" | "identifier" => return (nameOf source tree, false)
  | "string" | "number" => return (← lower tree, false)
  | "computed_property_name" => return (← lowerFirst source lower "expression" tree, true)
  | _ => return (unsupported source tree, false)

end Lowering

end ScriptForms
