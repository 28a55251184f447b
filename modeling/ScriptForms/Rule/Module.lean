import ScriptForms.Rule.Basic

/-!
# Rules for imports and exports

An imported name is defined from a required module; an exported name is stored in the exports of
the host environment.
-/

namespace ScriptForms.Rule

/-- The property under which a default export is stored. -/
def defaultExport : String := "default"

/-- The list `(.-name form)`. -/
def property (name : String) (form : Form) : Form := .call (Form.dotGetterName name) [form]

/-- The form of a required module. -/
def requireModule (source : String) : Form := .call (Form.hostName "require") [.string source]

/-- The definition of an imported name. -/
def importSpecifier (source : String) : Node → Except Fault Form
  | .importNamespaceSpecifier localName =>
    .ok (.call "def" [.symbol localName, requireModule source])
  | .importDefaultSpecifier localName =>
    .ok (.call "def" [.symbol localName, property defaultExport (requireModule source)])
  | .importSpecifier imported localName =>
    .ok (.call "def" [.symbol localName, property imported (requireModule source)])
  | node => .error (.unsupported node)

/-- An import: the definitions of its names, or only the required module if it names none. -/
def importDeclaration (specifiers : List Node) (source : String) : Except Fault (List Form) :=
  if specifiers.isEmpty then .ok [requireModule source]
  else specifiers.mapM (importSpecifier source)

/-- The list `(set! (.-name js/exports) value)`. -/
def exportForm (name : String) (value : Form) : Form :=
  .call "set!" [property name (.symbol (Form.hostName "exports")), value]

/-- A default export. A function with a name is defined first. -/
def exportDefault (visit : Visit) (declaration : Node) : Except Fault Form :=
  match declaration with
  | .functionDeclaration id _ _ => do
    let name ← bindingName id
    let definition ← visit.one declaration
    return .call "do" [definition, exportForm defaultExport name]
  | _ => return exportForm defaultExport (← visit.one declaration)

/-- The export of a name that is defined already. -/
def exportSpecifier : Node → Except Fault Form
  | .exportSpecifier localName exported => .ok (exportForm exported (.symbol localName))
  | node => .error (.unsupported node)

/-- A named export: a declaration followed by the exports of the names it defines, or the exports of
names that are defined elsewhere. -/
def exportNamed (visit : Visit) (declaration : Option Node) (specifiers : List Node) :
    Except Fault (List Form) :=
  match declaration with
  | some declaration => do
    let definitions ← visit declaration .value
    let exports := (definitions.filterMap Form.definedName?).map fun name =>
      exportForm name (.symbol name)
    return [.call "do" (definitions ++ exports)]
  | none => specifiers.mapM exportSpecifier

end ScriptForms.Rule
