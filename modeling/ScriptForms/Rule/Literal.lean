import ScriptForms.Rule.Statement
import ScriptForms.Text.Letter

/-!
# Rules for compound literals

* `Rule.template`: a template as a `str` form.
* `Rule.array`: a host array; each spread is appended by a `.concat` form.
* `Rule.object`: a host object; spreads are merged into a fresh object.
-/

namespace ScriptForms.Rule

/-- The texts of a template with the forms of its expressions between them. -/
def templateItems (visit : Visit) : List String → List Node → Except Fault (List Form)
  | [], _ => .ok []
  | text :: texts, [] => return .string text :: (← templateItems visit texts [])
  | text :: texts, expression :: expressions => do
    let value ← visit.one expression
    return .string text :: value :: (← templateItems visit texts expressions)

/-- A template as a `str` form. -/
def template (visit : Visit) (texts : List String) (expressions : List Node) : Except Fault Form :=
  return .call "str" (← templateItems visit texts expressions)

/-! ### Arrays -/

/-- An array under construction: `items` are the elements of a host array, or, once a spread has
been met, the array so far and what is appended to it. -/
structure ArrayParts where
  items : List Form := []
  concat : Bool := false

/-- The form of an array under construction. -/
def ArrayParts.form (parts : ArrayParts) : Form :=
  if parts.concat then .call ".concat" parts.items else .hostArray parts.items

/-- An array under construction with one more element. -/
def arrayElement (visit : Visit) (parts : ArrayParts) (element : Node) :
    Except Fault ArrayParts :=
  match element with
  | .spreadElement argument => do
    let spread ← visit.one argument
    return ⟨[parts.form, spread], true⟩
  | _ => do
    let item ← visit.one element
    return { parts with items := parts.items ++ [item] }

/-- An array literal. -/
def array (visit : Visit) (elements : List Node) : Except Fault Form :=
  return (← elements.foldlM (arrayElement visit) {}).form

/-! ### Objects -/

/-- Whether a text reads back as a keyword of the same name. -/
def isKeywordSafe (text : List Char) : Bool :=
  !text.isEmpty && !text.head?.any Char.isDigit &&
    text.all fun c => Text.isWordChar c || "-_*+!?<>=$".toList.contains c

/-- The key of an entry. -/
def propertyKey : Node → Except Fault Form
  | .identifier name => .ok (.keyword name)
  | .stringLiteral value =>
    .ok (if isKeywordSafe value.toList then .keyword value else .string value)
  | .numericLiteral raw => .ok (.keyword raw)
  | node => .error (.unsupported node)

/-- An object under construction: what has been closed by a spread, and the entries after it. -/
structure ObjectParts where
  sources : List Form := []
  entries : List Form := []
  spread : Bool := false

/-- The sources of an object under construction, its last entries included. -/
def ObjectParts.closed (parts : ObjectParts) : List Form :=
  if parts.entries.isEmpty then parts.sources else parts.sources ++ [.hostObject parts.entries]

/-- The form of an object under construction. Spreads are merged into a fresh object. -/
def ObjectParts.form (parts : ObjectParts) : Form :=
  if parts.spread then
    .call (Form.hostName "Object.assign") (.hostObject [] :: parts.closed)
  else .hostObject parts.entries

/-- The entry of a member of an object that is no spread. -/
def objectEntry (visit : Visit) (member : Node) : Except Fault Form :=
  match member with
  | .objectProperty key value computed _ => do
    if computed then throw (.computedKey key)
    let key ← propertyKey key
    let value ← visit.one value
    return .mapEntry key value
  | .objectMethod kind key params body computed => do
    if computed || kind ≠ .method then throw (.accessor kind key)
    let key ← propertyKey key
    let value ← function visit "fn" none params body
    return .mapEntry key value
  | _ => .error (.unsupported member)

/-- An object under construction with one more member. -/
def objectMember (visit : Visit) (parts : ObjectParts) (member : Node) :
    Except Fault ObjectParts :=
  match member with
  | .spreadElement argument => do
    let source ← visit.one argument
    return ⟨parts.closed ++ [source], [], true⟩
  | _ => do
    let entry ← objectEntry visit member
    return { parts with entries := parts.entries ++ [entry] }

/-- An object literal. -/
def object (visit : Visit) (properties : List Node) : Except Fault Form :=
  return (← properties.foldlM (objectMember visit) {}).form

end ScriptForms.Rule
