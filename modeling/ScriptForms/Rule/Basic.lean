import ScriptForms.Form.Basic
import ScriptForms.Rule.Fault
import ScriptForms.Scope

/-!
# Rules from trees to forms

A rule takes a node of one kind to zero or more forms. It receives the conversion of the smaller
nodes as an argument, of type `Visit`, so that each rule is a plain function; `Rule.Visit` ties them
together elsewhere. The parent decides how the forms of a child are used: spliced into its own form
(`Visit.block`) or taken as one form (`Visit.one`).

* `Context`: what a rule asks of one child. Nothing in it is handed down to grandchildren.
* `Visit.one`, `Visit.block`: the two ways to use a child.
* `bindingName`: the symbol of a name that is bound.
-/

namespace ScriptForms

/-- How an identifier is written. -/
inductive Naming where
  /-- As itself. -/
  | plain
  /-- As a step of a `..` list. -/
  | getter
  /-- As the reader of a property at the head of a list. -/
  | dotGetter
  /-- As a method at the head of a list. -/
  | method
  deriving DecidableEq, Inhabited

/-- What a rule asks of one child. -/
structure Context where
  naming : Naming := .plain
  /-- A name of the host environment is qualified. -/
  checkGlobal : Bool := false
  /-- A statement list is spliced into the parent. -/
  implicitDo : Bool := false
  /-- The name is the tag of an element. -/
  component : Bool := false
  deriving DecidableEq, Inhabited

namespace Context

/-- A child of which nothing is asked. -/
def value : Context := {}

/-- A callee, a receiver of a method, a target of an access or a constructor. -/
def callee : Context := { checkGlobal := true }

/-- A body whose statements are spliced. -/
def body : Context := { implicitDo := true }

/-- The tag of an element. -/
def tag : Context := { component := true }

/-- The name of a property, written in the given way. -/
def named (naming : Naming) : Context := { naming := naming }

end Context

namespace Rule

/-- A conversion of nodes to forms. -/
abbrev Visit := Node → Context → Except Fault (List Form)

namespace Visit

/-- The single form of a node. -/
def one (visit : Visit) (node : Node) (context : Context := .value) : Except Fault Form :=
  return Form.sequence (← visit node context)

/-- The statements of a branch or body, without markers. -/
def block (visit : Visit) (node : Node) : Except Fault (List Form) :=
  return (← visit node .body).filter fun form => !form.isMarker

end Visit

/-- The symbol of a name that is bound; nothing but a name can be bound. -/
def bindingName : Node → Except Fault Form
  | .identifier name => .ok (.symbol name)
  | node => .error (.unsupported node)

/-- The symbol of an identifier. Only a plain name can be a name of the host environment. -/
def identifier (scope : Scope) (name : String) (context : Context) : Form :=
  match context.naming with
  | .plain =>
    if context.checkGlobal && scope name then .symbol (Form.hostName name) else .symbol name
  | .getter => .symbol (Form.getterName name)
  | .dotGetter => .symbol (Form.dotGetterName name)
  | .method => .symbol (Form.methodName name)

/-- The head under which an operator is applied. -/
def operatorName (operator : String) : String :=
  match operator with
  | "==" | "===" => "="
  | "!=" | "!==" => "not="
  | "||" => "or"
  | "&&" => "and"
  | "!" => "not"
  | _ => operator

end Rule

end ScriptForms
