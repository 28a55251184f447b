import ScriptForms.Node.Branch
import ScriptForms.Rule.Basic

/-!
# Rules for statements and functions

* `Rule.statements`: a statement list; a run of declarations opens a `let` around all that follows.
* `Rule.declarator`, `Rule.function`: definitions.
* `Rule.ifStatement`: `when`, `if` or `cond`, by the number of branches.
* `Rule.switchStatement`: a `case` form; clauses without statements share the body that follows.
* `Rule.tryStatement`: `try` with its `catch` and `finally`.
-/

namespace ScriptForms.Rule

/-! ### Functions and definitions -/

/-- The list `(head name? [params ...] body ...)` of a function. -/
def function (visit : Visit) (head : String) (name : Option Form) (params : List Node)
    (body : Node) : Except Fault Form := do
  let params ← params.mapM bindingName
  let forms ← visit.block body
  return .call head (name.toList ++ .vector params :: forms)

/-- The definition of a name: `defn` for a function without a name of its own, `def` otherwise. -/
def declarator (visit : Visit) (node : Node) : Except Fault Form :=
  match node with
  | .variableDeclarator id init => do
    let name ← bindingName id
    match init with
    | some (.arrowFunctionExpression params body)
    | some (.functionExpression none params body) => function visit "defn" (some name) params body
    | some init => return .call "def" [name, ← visit.one init]
    | none => return .call "def" [name, .nil]
  | _ => .error (.unsupported node)

/-! ### Statement lists -/

/-- The name and the value that a declarator adds to a `let`. -/
def binding (visit : Visit) (node : Node) : Except Fault (List Form) :=
  match node with
  | .variableDeclarator id init => do
    let name ← bindingName id
    match init with
    | some init => return [name, ← visit.one init]
    | none => return [name, .nil]
  | _ => .error (.unsupported node)

/-- The bindings that a declaration adds to a `let`. -/
def bindings (visit : Visit) (node : Node) : Except Fault (List Form) :=
  match node with
  | .variableDeclaration _ declarations => return (← declarations.mapM (binding visit)).flatten
  | _ => .error (.unsupported node)

/-- Whether a statement list starts with a declaration. -/
def startsDeclared (body : List Node) : Bool := body.head?.any Node.isDeclaration

/-- The forms of a statement list, given the bindings of its leading declarations and the forms of
what follows them. -/
def closeLet (body : List Node) (split : List Form × List Form) : List Form :=
  if startsDeclared body then [.call "let" (.vector split.1 :: split.2)] else split.2

/-- The bindings of the leading declarations of a statement list and the forms of what follows. -/
def splitStatements (visit : Visit) : List Node → Except Fault (List Form × List Form)
  | [] => .ok ([], [])
  | statement :: rest =>
    if statement.isDeclaration then do
      let first ← bindings visit statement
      let (others, forms) ← splitStatements visit rest
      return (first ++ others, forms)
    else do
      let first ← visit statement .value
      let split ← splitStatements visit rest
      return ([], (first.filter fun form => !form.isMarker) ++ closeLet rest split)

/-- The forms of a statement list, without markers. A run of declarations opens a `let` that holds
everything after it. -/
def statements (visit : Visit) (body : List Node) : Except Fault (List Form) :=
  return closeLet body (← splitStatements visit body)

/-- A program: the comments of its statements and their forms, in order. -/
def program (visit : Visit) (body : List Node) : Except Fault Form := do
  let items ← body.mapM fun statement => do
    let forms ← visit statement .value
    match statement with
    | .expressionStatement _ comments => return comments.map .comment ++ forms
    | _ => return forms
  return .program items.flatten

/-! ### Conditions -/

/-- The test of a branch; the final `else` is always taken. -/
def branchTest (visit : Visit) (branch : Node.Branch) : Except Fault Form :=
  match branch.test with
  | some test => visit.one test
  | none => .ok (.keyword "else")

/-- The test and the body of a branch, each as one form. -/
def branchPair (visit : Visit) (branch : Node.Branch) : Except Fault (List Form) := do
  let test ← branchTest visit branch
  let body ← visit.block branch.body
  return [test, .sequence body]

/-- A chain of conditions as one form: `when` for one branch, `if` for one branch and an `else`,
and `cond` for anything longer. -/
def ifStatement (visit : Visit) (node : Node) : Except Fault Form :=
  match node.branches with
  | [only] => do
    let test ← branchTest visit only
    let body ← visit.block only.body
    return .call "when" (test :: body)
  | [first, ⟨none, body⟩] => do
    let pair ← branchPair visit first
    let other ← visit.block body
    return .call "if" (pair ++ [.sequence other])
  | branches => do
    let pairs ← branches.mapM (branchPair visit)
    let close := if branches.getLast?.any (·.test.isSome) then [.keyword "else", .nil] else []
    return .call "cond" (pairs.flatten ++ close)

/-! ### Switches -/

/-- The test of a `case` clause; several tests are grouped in a list. -/
def caseTest : List Form → Form
  | [test] => test
  | tests => .list tests

/-- The body of a `case` clause. -/
def caseBody (forms : List Form) : Form := if forms.isEmpty then .nil else .sequence forms

/-- The tests and bodies of the clauses from clause number `clause` on, and the body of the default
clause. `tests` are the tests that wait for the next body; a default clause takes them with it. Of
several default clauses the last one counts. -/
def clauses (visit : Visit) :
    (clause : Nat) → (tests : List Form) → List Node → Except Fault (List Form × Option Form)
  | _, [], [] => .ok ([], none)
  | _, tests, [] => .ok ([caseTest tests, .nil], none)
  | clause, tests, node :: rest =>
    match node with
    | .switchCase (some test) [] => do
      let test ← visit.one test
      clauses visit (clause + 1) (tests ++ [test]) rest
    | .switchCase none [] => .error .emptyDefault
    | .switchCase test consequent => do
      if !rest.isEmpty && !Node.endsWithExit consequent then
        throw (.fallsThrough clause)
      if Node.containsBreak (Node.clauseBody consequent) then
        throw (.breaksEarly clause)
      let body := caseBody (← statements visit (Node.clauseBody consequent))
      match test with
      | some test => do
        let test ← visit.one test
        let (pairs, default) ← clauses visit (clause + 1) [] rest
        return (caseTest (tests ++ [test]) :: body :: pairs, default)
      | none => do
        let (pairs, default) ← clauses visit (clause + 1) [] rest
        return (pairs, default <|> some body)
    | _ => .error (.unsupported node)

/-- A `switch` as a `case` form. A value that no clause names gives `nil`. -/
def switchStatement (visit : Visit) (discriminant : Node) (cases : List Node) :
    Except Fault Form := do
  let value ← visit.one discriminant
  let (pairs, default) ← clauses visit 1 [] cases
  return .call "case" (value :: pairs ++ [default.getD .nil])

/-! ### Exceptions -/

/-- A handler as a `catch` form, which catches every object. -/
def catchClause (visit : Visit) (node : Node) : Except Fault Form :=
  match node with
  | .catchClause param body => do
    let name ← match param with
      | some param => bindingName param
      | none => pure (.symbol "_")
    let forms ← visit.block body
    return .call "catch" (.symbol (Form.hostName "Object") :: name :: forms)
  | _ => .error (.unsupported node)

/-- A `try` form with its `catch` and `finally` at the end. -/
def tryStatement (visit : Visit) (block : Node) (handler finalizer : Option Node) :
    Except Fault Form := do
  let body ← visit.block block
  let handlers ← handler.toList.mapM (catchClause visit)
  let finalizers ← finalizer.toList.mapM fun node => return .call "finally" (← visit.block node)
  return .call "try" (body ++ handlers ++ finalizers)

end ScriptForms.Rule
