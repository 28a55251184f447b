import ScriptForms.Node.Basic

/-!
# Why a tree has no form

A `Fault` is the cause for which a syntax tree is refused. Nothing is dropped in silence: a
construct without a faithful form is named in a fault.

* `Fault.kind`: the three families of faults.
* `Fault.message`: the wording.
-/

namespace ScriptForms

/-- The cause for which a syntax tree has no form. -/
inductive Fault where
  /-- A node without a rule. -/
  | unsupported (node : Node)
  /-- A property whose key is computed. -/
  | computedKey (key : Node)
  /-- A method of an object that is an accessor or has a computed key. -/
  | accessor (kind : MethodKind) (key : Node)
  /-- A spread among the arguments of a call. -/
  | spreadArgument (argument : Node)
  /-- An assignment that may leave its target alone, such as `||=`. -/
  | logicalAssignment (operator : String)
  /-- A `delete` of something that is no access. -/
  | invalidDelete (node : Node)
  /-- A node that has a meaning only inside its parent. -/
  | misplaced (node : Node)
  /-- A compound assignment that would evaluate its target twice. -/
  | repeatedPlace (operator : String) (target : Node)
  /-- A `switch` with a default clause that has no statements. -/
  | emptyDefault
  /-- A clause of a `switch` that runs on into the next one. -/
  | fallsThrough (clause : Nat)
  /-- A clause of a `switch` with a `break` before its end. -/
  | breaksEarly (clause : Nat)
  deriving Inhabited

namespace Fault

/-- The families of faults. -/
inductive Kind where
  /-- A construct without a form. -/
  | unsupported
  /-- A `delete` of something that is no access. -/
  | invalidDelete
  /-- A condition of a rule that does not hold. -/
  | precondition
  deriving DecidableEq, Inhabited

/-- The family of a fault. -/
def kind : Fault → Kind
  | .unsupported _ | .computedKey _ | .accessor .. | .spreadArgument _ | .logicalAssignment _ =>
    .unsupported
  | .invalidDelete _ => .invalidDelete
  | .misplaced _ | .repeatedPlace .. | .emptyDefault | .fallsThrough _ | .breaksEarly _ =>
    .precondition

/-- The word for a kind of method in messages. -/
def methodWord : MethodKind → String
  | .method => "Method"
  | .get => "Get"
  | .set => "Set"

/-- The message for a construct without a form. -/
def unsupportedMessage (kind described : String) : String :=
  "unsupported syntax (" ++ kind ++ "): " ++ described

/-- The wording of a fault. -/
def message : Fault → String
  | .unsupported node => unsupportedMessage node.kind node.describe
  | .computedKey key => unsupportedMessage "ComputedPropertyKey" key.describe
  | .accessor kind key =>
    unsupportedMessage "ObjectMethod" (methodWord kind ++ " accessor " ++ key.describe)
  | .spreadArgument argument =>
    unsupportedMessage "SpreadElement" ("spread argument " ++ argument.describe)
  | .logicalAssignment operator => unsupportedMessage "LogicalAssignment" ("`" ++ operator ++ "`")
  | .invalidDelete node =>
    "cannot delete " ++ node.describe ++ ": only property accesses can be deleted"
  | .misplaced node => "structure: " ++ node.kind ++ " cannot appear here"
  | .repeatedPlace operator target =>
    "assignment: `" ++ operator ++ "` would evaluate " ++ target.describe ++ " twice"
  | .emptyDefault => "switch: empty default clause"
  | .fallsThrough clause =>
    "switch: clause " ++ toString clause ++ " falls through to the next clause"
  | .breaksEarly clause => "switch: clause " ++ toString clause ++ " breaks before its end"

end Fault

end ScriptForms
