import ScriptForms.Form.Basic
import ScriptForms.Json.Decode

/-!
# Forms as JSON

A form is written as an object whose `type` field names its kind, followed by its parts in order.
-/

namespace ScriptForms.Form

mutual

/-- The JSON object of a form. -/
def toJson : Form → Json
  | .symbol name => .obj [("type", .str "symbol"), ("name", .str name)]
  | .keyword value => .obj [("type", .str "keyword"), ("value", .str value)]
  | .number raw => .obj [("type", .str "number"), ("raw", .str raw)]
  | .string value => .obj [("type", .str "string"), ("value", .str value)]
  | .boolean value => .obj [("type", .str "boolean"), ("value", .bool value)]
  | .regex pattern flags =>
    .obj [("type", .str "regex"), ("pattern", .str pattern), ("flags", .str flags)]
  | .list children => .obj [("type", .str "list"), ("children", .arr (toJsonAll children))]
  | .vector children => .obj [("type", .str "vector"), ("children", .arr (toJsonAll children))]
  | .hashMap children => .obj [("type", .str "hash-map"), ("children", .arr (toJsonAll children))]
  | .mapEntry key value =>
    .obj [("type", .str "map-entry"), ("key", toJson key), ("value", toJson value)]
  | .tagged tag form => .obj [("type", .str "tagged"), ("tag", .str tag), ("form", toJson form)]
  | .program children => .obj [("type", .str "program"), ("children", .arr (toJsonAll children))]
  | .comment text => .obj [("type", .str "comment"), ("text", .str text)]
  | .empty => .obj [("type", .str "empty")]
  | .leave => .obj [("type", .str "break")]

/-- The JSON objects of several forms. -/
def toJsonAll : List Form → List Json
  | [] => []
  | form :: forms => toJson form :: toJsonAll forms

end

/-- A form from the fields of its object. -/
def ofFields (fields : Fields Form) : Option Form := do
  let kind ← fields.text "type"
  match kind with
  | "symbol" => return .symbol (← fields.text "name")
  | "keyword" => return .keyword (← fields.text "value")
  | "number" => return .number (← fields.text "raw")
  | "string" => return .string (← fields.text "value")
  | "boolean" => return .boolean (← fields.flag "value")
  | "regex" => return .regex (← fields.text "pattern") (← fields.text "flags")
  | "list" => return .list (← fields.children "children")
  | "vector" => return .vector (← fields.children "children")
  | "hash-map" => return .hashMap (← fields.children "children")
  | "map-entry" => return .mapEntry (← fields.child "key") (← fields.child "value")
  | "tagged" => return .tagged (← fields.text "tag") (← fields.child "form")
  | "program" => return .program (← fields.children "children")
  | "comment" => return .comment (← fields.text "text")
  | "empty" => return .empty
  | "break" => return .leave
  | _ => none

/-- Reads a form from JSON. -/
def ofJson? (document : Json) : Option Form := (document.read ofFields).tree?

end ScriptForms.Form
