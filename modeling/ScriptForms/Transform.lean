import ScriptForms.Form.Printer
import ScriptForms.Lowering.Program
import ScriptForms.Rule.Convert
import ScriptForms.Source.Program
import ScriptForms.Token.Layout

/-!
# From script to ClojureScript

* `parse`: the tree of a script, as a reader gives it.
* `toForm`: the form of a script.
* `transform`: the text of that form, laid out.
-/

namespace ScriptForms

/-- Why a script has no text. -/
inductive TransformError where
  /-- The script has no tree. Why it has none, and where, is not kept. -/
  | syntaxError
  /-- The tree of the script has no form. -/
  | fault (cause : Fault)
  /-- The form has no text. -/
  | print (cause : PrintError)
  /-- The text cannot be laid out. -/
  | layout (cause : LayoutError)

/-- The wording of an error. -/
def TransformError.message : TransformError → String
  | .syntaxError => "syntax error"
  | .fault cause => cause.message
  | .print cause => cause.message
  | .layout cause => cause.message

/-- The tree of a script. -/
def parse (source : String) (reader : Reader := Source.reader) : Except TransformError Node :=
  (reader.read source).program.mapError fun _ => .syntaxError

/-- The form of a script. -/
def toForm (scope : Scope) (source : String) (reader : Reader := Source.reader) :
    Except TransformError Form := do
  let program ← parse source reader
  (program.toProgram scope).mapError .fault

/-- A form as text, laid out. -/
def Form.layOut (layout : Layout) (form : Form) : Except TransformError String := do
  let text ← form.print.mapError .print
  (layout.apply text).mapError .layout

/-- A script as ClojureScript. -/
def transform (scope : Scope) (layout : Layout) (source : String)
    (reader : Reader := Source.reader) : Except TransformError String := do
  let form ← toForm scope source reader
  form.layOut layout

end ScriptForms
