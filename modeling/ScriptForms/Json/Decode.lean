import ScriptForms.Json.Basic

/-!
# Reading trees from JSON

A tree type whose values are written as objects is read from the leaves up: `Json.read build` hands
`build` the fields of an object with every object below it already read. A field is then

* `absent` for `null`, and for a name the object does not have,
* a truth value, a string or an array of fields,
* or the tree that `build` made of an object, if it made one.
-/

namespace ScriptForms

/-- A JSON value in which every object has been read as a tree. -/
inductive Field (α : Type) where
  | absent
  | flag (value : Bool)
  | text (value : String)
  | many (items : List (Field α))
  | tree (value : Option α)

/-- The fields of one object. -/
abbrev Fields (α : Type) := List (String × Field α)

namespace Json

mutual

/-- Reads a value, given how the fields of an object make a tree. -/
def read {α : Type} (build : Fields α → Option α) : Json → Field α
  | .null => .absent
  | .bool value => .flag value
  | .str value => .text value
  | .arr items => .many (readItems build items)
  | .obj fields => .tree (build (readFields build fields))

/-- Reads the items of an array. -/
def readItems {α : Type} (build : Fields α → Option α) : List Json → List (Field α)
  | [] => []
  | item :: items => read build item :: readItems build items

/-- Reads the fields of an object. -/
def readFields {α : Type} (build : Fields α → Option α) : List (String × Json) → Fields α
  | [] => []
  | (key, value) :: fields => (key, read build value) :: readFields build fields

end

end Json

namespace Field

variable {α : Type}

/-- The tree of a field that holds one. -/
def tree? : Field α → Option α
  | .tree value => value
  | _ => none

/-- The string of a field that holds one. -/
def text? : Field α → Option String
  | .text value => some value
  | _ => none

/-- Every item of an array, read by `item`; an absent array is empty. -/
def all? {β : Type} (item : Field α → Option β) : Field α → Option (List β)
  | .absent => some []
  | .many items => items.mapM item
  | _ => none

end Field

namespace Fields

variable {α : Type}

/-- The field of a name. -/
def get (fields : Fields α) (name : String) : Field α :=
  (fields.lookup name).getD .absent

/-- The string of a name. -/
def text (fields : Fields α) (name : String) : Option String := (get fields name).text?

/-- The truth value of a name, `false` if it is absent. -/
def flag (fields : Fields α) (name : String) : Option Bool :=
  match get fields name with
  | .absent => some false
  | .flag value => some value
  | _ => none

/-- The subtree of a name. -/
def child (fields : Fields α) (name : String) : Option α := (get fields name).tree?

/-- The subtree of a name, if there is one. -/
def child? (fields : Fields α) (name : String) : Option (Option α) :=
  match get fields name with
  | .absent => some none
  | field => field.tree?.map some

/-- The subtrees of a name. -/
def children (fields : Fields α) (name : String) : Option (List α) :=
  (get fields name).all? Field.tree?

/-- The strings of a name. -/
def texts (fields : Fields α) (name : String) : Option (List String) :=
  (get fields name).all? Field.text?

end Fields

end ScriptForms
