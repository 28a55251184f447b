import ScriptForms.Scope
import ScriptForms.Token.Layout
import ScriptForms.Toml.Parser

/-!
# Settings

The settings say which names belong to the host environment and how the result is laid out. They
are read from a TOML document with the tables `globals` and `output`; every key may be left out, and
no other key is allowed. A table may also be written as an array of its values in order.

* `Settings.ofToml?`: the settings of a document.
* `Settings.nameSet`: the names of the host environment.
-/

namespace ScriptForms

/-- Which names belong to the host environment. -/
structure GlobalSettings where
  /-- Start from the usual names. -/
  defaults : Bool := true
  /-- Names to add. -/
  included : List String := []
  /-- Names to leave out. -/
  excluded : List String := []
  deriving DecidableEq, Inhabited

/-- The settings. -/
structure Settings where
  globals : GlobalSettings := {}
  layout : Layout := .compact
  deriving DecidableEq, Inhabited

/-- The names of the host environment: first the usual names, then what is added, then what is left
out. -/
def GlobalSettings.nameSet (settings : GlobalSettings) : NameSet :=
  ((if settings.defaults then NameSet.host else NameSet.empty).insertMany settings.included).eraseMany
    settings.excluded

namespace Settings

/-- The names of the host environment. -/
def nameSet (settings : Settings) : NameSet := settings.globals.nameSet

/-! ### Reading -/

/-- A truth value. -/
def flagOf : Toml → Option Bool
  | .boolean value => some value
  | _ => none

/-- A string. -/
def nameOf : Toml → Option String
  | .string value => some value
  | _ => none

/-- An array of strings. -/
def namesOf : Toml → Option (List String)
  | .array items => items.mapM nameOf
  | _ => none

/-- One entry of the table `globals`. -/
def addGlobalsEntry (settings : GlobalSettings) (entry : String × Toml) : Option GlobalSettings :=
  match entry.1 with
  | "defaults" => (flagOf entry.2).map fun value => { settings with defaults := value }
  | "include" => (namesOf entry.2).map fun names => { settings with included := names }
  | "exclude" => (namesOf entry.2).map fun names => { settings with excluded := names }
  | _ => none

/-- The table `globals`, or an array of its values. -/
def globalsOf : Toml → Option GlobalSettings
  | .table _ entries => entries.foldlM addGlobalsEntry {}
  | .array items => (["defaults", "include", "exclude"].zip items).foldlM addGlobalsEntry {}
  | _ => none

/-- The layout of a name. -/
def layoutNamed : String → Option Layout
  | "compact" => some .compact
  | "raw" => some .raw
  | _ => none

/-- A layout: its name, or a table whose first key is its name and whose value is an empty table. A
table in braces has no other key. -/
def layoutOf : Toml → Option Layout
  | .string name => layoutNamed name
  | .table origin ((name, .table _ []) :: others) =>
    if origin.isInline && !others.isEmpty then none else layoutNamed name
  | _ => none

/-- One entry of the table `output`. -/
def addOutputEntry (_ : Layout) (entry : String × Toml) : Option Layout :=
  match entry.1 with
  | "format" => layoutOf entry.2
  | _ => none

/-- The table `output`, or an array of its values. -/
def outputOf : Toml → Option Layout
  | .table _ entries => entries.foldlM addOutputEntry .compact
  | .array [] => some .compact
  | .array (first :: _) => layoutOf first
  | .tables reversed => reversed.getLast?.bind fun entries => layoutOf (.table .header entries)
  | _ => none

/-- One entry of a document. -/
def addEntry (settings : Settings) (entry : String × Toml) : Option Settings :=
  match entry.1 with
  | "globals" => (globalsOf entry.2).map fun globals => { settings with globals := globals }
  | "output" => (outputOf entry.2).map fun layout => { settings with layout := layout }
  | _ => none

/-- The settings of a document, as a reader of TOML gives it. -/
def ofToml? (source : String) (reader : Toml.Reader := Toml.parse?) : Option Settings := do
  let document ← reader source
  document.entries.foldlM addEntry {}

end Settings

end ScriptForms
