import ScriptForms.Node.Access
import ScriptForms.Rule.Basic
import ScriptForms.Text.Blank

/-!
# Rules for JSX

An element is a vector of its tag, its attributes and its children. Text of blanks only leaves a
marker, which prints as nothing.
-/

namespace ScriptForms.Rule

/-- The name of a tag or an attribute. The tag of a component is a symbol. -/
def elementName (name : String) (context : Context) : Form :=
  if context.component && Node.isComponentName name then .symbol name else .keyword name

/-- Text between elements. -/
def elementText (value : String) : Form :=
  if (Text.trim value.toList).isEmpty then .empty else .string value

/-- The value of an attribute: `true` if there is none, `nil` if it is empty. -/
def attributeValue (visit : Visit) : Option Node → Except Fault Form
  | none => .ok (.boolean true)
  | some value => do
    let form ← visit.one value
    return if form.isMarker then .nil else form

/-- The entry of an attribute. -/
def attributeEntry (visit : Visit) (node : Node) : Except Fault Form :=
  match node with
  | .jsxAttribute name value => do
    let value ← attributeValue visit value
    let name ← visit.one name
    return .mapEntry name value
  | _ => .error (.unsupported node)

/-- The attributes of an element: a map, or `nil` if there are none. -/
def attributeMap (visit : Visit) (nodes : List Node) : Except Fault Form :=
  if nodes.isEmpty then .ok .nil else return .hashMap (← nodes.mapM (attributeEntry visit))

/-- An element. -/
def jsxElement (visit : Visit) (opening : Node) (children : List Node) : Except Fault Form :=
  match opening with
  | .jsxOpeningElement name nodes _ => do
    let tag ← visit.one name .tag
    let attributes ← attributeMap visit nodes
    let items ← children.mapM (visit · .value)
    return .vector (tag :: attributes :: items.flatten)
  | _ => .error (.unsupported opening)

end ScriptForms.Rule
