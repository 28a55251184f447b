import ScriptForms.Node.Access
import ScriptForms.Rule.Basic

/-!
# Rules for accesses, assignments and calls

An access that starts at `this` is put under a `this-as` form that binds the receiver to a name; the
access itself then starts at that name. Assignments use a name of their own, so that a receiver that
is read inside the value has its usual name.

* `Rule.member`: reading a property, an element or a chain of properties.
* `Rule.assignment`: `set!` for names and properties, `aset` for elements.
* `Rule.call`, `Rule.callExpression`: calls; a chain of more than two calls is threaded.
-/

namespace ScriptForms.Rule

/-- The name of the receiver. -/
def receiver : String := "this"

/-- The name of the receiver inside an assignment. -/
def placeReceiver : String := "that"

/-! ### Reading -/

/-- The list `(.-property object)`. -/
def getter (visit : Visit) (object property : Node) : Except Fault Form := do
  let property ← visit.one property (.named .dotGetter)
  let object ← visit.one object .callee
  return .list [property, object]

/-- The list `(aget object key)`. -/
def element (visit : Visit) (object key : Node) : Except Fault Form := do
  let object ← visit.one object .callee
  let key ← visit.one key
  return .call "aget" [object, key]

/-- A chain of dotted accesses: a getter for one property, a `..` form for several. -/
def dotted (visit : Visit) (target : Node) : List Node → Except Fault Form
  | [property] => getter visit target property
  | properties => do
    let target ← visit.one target .callee
    let steps ← properties.mapM fun property => visit.one property (.named .getter)
    return .call ".." (target :: steps)

/-- An access that does not start at `this`. -/
def plainMember (visit : Visit) (node : Node) : Except Fault Form :=
  match node with
  | .memberExpression object property true => element visit object property
  | .memberExpression _ _ false => dotted visit node.dotChain.1 node.dotChain.2
  | _ => .error (.unsupported node)

/-- An access. -/
def member (visit : Visit) (node : Node) : Except Fault Form :=
  if node.isReceiverRooted then
    return .thisAs receiver (← plainMember visit (node.rebindReceiver receiver))
  else plainMember visit node

/-! ### Writing -/

/-- The operator of a compound assignment without its final `=`. -/
def arithmeticOperator (operator : String) : String :=
  match operator.toList.getLast? with
  | some '=' => String.ofList operator.toList.dropLast
  | _ => operator

/-- The value that an assignment stores: the value itself for `=`, and the operator applied to the
current value for a compound assignment. -/
def compound (operator : String) (current value : Form) : Except Fault Form :=
  match operator with
  | "=" => .ok value
  | "&&=" | "||=" | "??=" => .error (.logicalAssignment operator)
  | _ => .ok (.call (arithmeticOperator operator) [current, value])

/-- The list `(set! place value)`, with the place read again by a compound assignment. -/
def assignPlace (operator : String) (place value : Form) : Except Fault Form :=
  return .call "set!" [place, ← compound operator place value]

/-- The assignment of a value to a target that does not start at `this`. -/
def assignTo (visit : Visit) (operator : String) (target : Node) (value : Form) :
    Except Fault Form :=
  match target with
  | .identifier _ => do
    let place ← visit.one target
    assignPlace operator place value
  | .memberExpression object property false => do
    let place ← getter visit object property
    assignPlace operator place value
  | .memberExpression object key true => do
    let object ← visit.one object .callee
    let key ← visit.one key
    return .call "aset" [object, key, ← compound operator (.call "aget" [object, key]) value]
  | _ => .error (.unsupported target)

/-- An assignment to a target; `shown` is the target as a message shows it. -/
def plainAssignment (visit : Visit) (operator : String) (shown target right : Node) :
    Except Fault Form := do
  if operator ≠ "=" ∧ ¬target.isRepeatablePlace then
    throw (.repeatedPlace operator shown)
  let value ← visit.one right
  assignTo visit operator target value

/-- An assignment. -/
def assignment (visit : Visit) (operator : String) (left right : Node) : Except Fault Form :=
  if left.isReceiverRooted then
    return .thisAs placeReceiver
      (← plainAssignment visit operator left (left.rebindReceiver placeReceiver) right)
  else plainAssignment visit operator left left right

/-- A unary operator. Only accesses can be deleted. -/
def unary (visit : Visit) (operator : String) (argument : Node) : Except Fault Form :=
  if operator ≠ "delete" then
    return .call (operatorName operator) [← visit.one argument]
  else
    match argument with
    | .memberExpression object (.identifier name) false =>
      return .call "js-delete" [← visit.one object .callee, .string name]
    | .memberExpression object key _ => do
      let key ← visit.one key
      let object ← visit.one object .callee
      return .call "js-delete" [object, key]
    | _ => .error (.invalidDelete argument)

/-! ### Calling -/

/-- An argument of a call. -/
def argument (visit : Visit) : Node → Except Fault Form
  | .spreadElement argument => .error (.spreadArgument argument)
  | node => visit.one node

/-- The arguments of a call. -/
def arguments (visit : Visit) (nodes : List Node) : Except Fault (List Form) :=
  nodes.mapM (argument visit)

/-- The front of a call: a method and its receiver, or a callee. -/
def callFront (visit : Visit) (callee : Node) : Except Fault (List Form) :=
  match callee with
  | .memberExpression object property false => do
    let method ← visit.one property (.named .method)
    let object ← visit.one object .callee
    return [method, object]
  | .memberExpression object key true => return [← element visit object key]
  | _ => return [← visit.one callee .callee]

/-- A call whose callee does not start at `this`. -/
def plainCall (visit : Visit) (callee : Node) (nodes : List Node) : Except Fault Form := do
  let front ← callFront visit callee
  return .list (front ++ (← arguments visit nodes))

/-- A call. -/
def call (visit : Visit) (callee : Node) (nodes : List Node) : Except Fault Form :=
  if callee.isReceiverRooted then
    return .thisAs receiver (← plainCall visit (callee.rebindReceiver receiver) nodes)
  else plainCall visit callee nodes

/-- A later call of a chain, as a stage that the value so far is threaded into. -/
def stage (visit : Visit) (link : Node.CallLink) : Except Fault Form :=
  match link.callee with
  | .memberExpression _ property _ => do
    let method ← visit.one property (.named .method)
    return .list (method :: (← arguments visit link.arguments))
  | callee => .error (.unsupported callee)

/-- A call, threaded if it ends a chain of more than two calls. -/
def callExpression (visit : Visit) (callee : Node) (nodes : List Node) : Except Fault Form :=
  let links := Node.callChain (.callExpression callee nodes)
  match Node.isPipeline links, links with
  | true, first :: others => do
    let start ← call visit first.callee first.arguments
    let stages ← others.mapM (stage visit)
    return .call "->" (start :: stages)
  | _, _ => call visit callee nodes

/-- A construction. -/
def newExpression (visit : Visit) (callee : Node) (nodes : List Node) : Except Fault Form := do
  let callee ← visit.one callee .callee
  return .call "new" (callee :: (← arguments visit nodes))

end ScriptForms.Rule
