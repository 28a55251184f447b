import ScriptForms.Lowering.Basic

/-!
# Statements

The rules for statements, declarations, imports and exports. `statementRule?` gives the rule of a
kind of tree.
-/

namespace ScriptForms.Lowering

variable (source : List Char) (lower : Lower)

/-! ### Control flow -/

/-- A `break` statement. One with a label is kept as its text. -/
def breakStatement (tree : Tree) : Node :=
  if (tree.child? "label").isSome then unsupported source tree else .breakStatement

/-- An `if` statement. -/
def ifStatement (tree : Tree) : Except ParseError Node := do
  let alternate ← (tree.child? "alternative").mapM (lowerFirst source lower "statement")
  let test ← lowerAt source lower "condition" tree
  let consequent ← lowerAt source lower "consequence" tree
  return .ifStatement test consequent alternate

/-- A clause of a `switch`, if the node is one. -/
def switchClause (tree : Tree) : Except ParseError (Option Node) :=
  match tree.kind with
  | "switch_case" => do
    let test ← lowerAt source lower "value" tree
    return some (.switchCase (some test) (← (tree.childrenAt "body").mapM lower))
  | "switch_default" => return some (.switchCase none (← (tree.childrenAt "body").mapM lower))
  | _ => return none

/-- A `switch` statement. -/
def switchStatement (tree : Tree) : Except ParseError Node := do
  let body ← field source tree "body"
  let cases ← body.named.mapM (switchClause source lower)
  let discriminant ← lowerAt source lower "value" tree
  return .switchStatement discriminant (cases.filterMap id)

/-- The handler of a `try` statement. -/
def catchClause (tree : Tree) : Except ParseError Node := do
  let param := (tree.child? "parameter").map (param source)
  return .catchClause param (← lowerAt source lower "body" tree)

/-- A `try` statement. -/
def tryStatement (tree : Tree) : Except ParseError Node := do
  let handler ← (tree.child? "handler").mapM (catchClause source lower)
  let finalizer ← (tree.child? "finalizer").mapM (lowerAt source lower "body")
  let block ← lowerAt source lower "body" tree
  return .tryStatement block handler finalizer

/-! ### Declarations -/

/-- The keyword of a declaration. -/
def bindingKind (tree : Tree) : BindingKind :=
  match (tree.child? "kind").map (textOf source) with
  | some "let" => .let
  | some "const" => .const
  | _ => .var

/-- A variable with its initial value. -/
def declarator (tree : Tree) : Except ParseError Node := do
  let target ← lowerAt source lower "name" tree
  return .variableDeclarator target (← lowerAt? lower "value" tree)

/-- A declaration of variables. -/
def declaration (tree : Tree) : Except ParseError Node := do
  let declarators := tree.named.filter (·.kind == "variable_declarator")
  return .variableDeclaration (bindingKind source tree)
    (← declarators.mapM (declarator source lower))

/-- A declaration of a function. An asynchronous one is kept as its text. -/
def functionDeclaration (tree : Tree) : Except ParseError Node := do
  if tree.hasToken "async" then return unsupported source tree
  let name := nameOf source (← field source tree "name")
  let params ← params source tree
  return .functionDeclaration name params (← lowerAt source lower "body" tree)

/-! ### Imports and exports -/

/-- An import of a name, under another name or its own. -/
def importSpecifier (tree : Tree) : Except ParseError Node := do
  let imported := exportName source (← field source tree "name")
  return .importSpecifier imported (((tree.child? "alias").map (textOf source)).getD imported)

/-- The names of a part of an import, unless there is no rule for the part. -/
def importNames (tree : Tree) : Except ParseError (Option (List Node)) :=
  match tree.kind with
  | "identifier" => return some [.importDefaultSpecifier (textOf source tree)]
  | "namespace_import" => do
    return some [.importNamespaceSpecifier (textOf source (← firstNamed source tree "identifier"))]
  | "named_imports" => return some (← tree.named.mapM (importSpecifier source))
  | _ => return none

/-- The names of the parts of an import, up to the first part without a rule. -/
def importParts : List Tree → Except ParseError (Option (List Node))
  | [] => return some []
  | part :: rest => do
    match ← importNames source part with
    | none => return none
    | some names => return (← importParts rest).map (names ++ ·)

/-- An import. One with a part that has no rule is kept as its text. -/
def importStatement (tree : Tree) : Except ParseError Node := do
  let origin := valueOf source (← field source tree "source")
  let clause := tree.named.find? (·.kind == "import_clause")
  match ← importParts source (clause.map Tree.named |>.getD []) with
  | some names => return .importDeclaration names origin
  | none => return unsupported source tree

/-- An export of a name, under another name or its own. -/
def exportSpecifier (tree : Tree) : Except ParseError Node := do
  let localName := exportName source (← field source tree "name")
  return .exportSpecifier localName (((tree.child? "alias").map (exportName source)).getD localName)

/-- An export of names. One without names is kept as its text. -/
def exportNames (tree : Tree) : Except ParseError Node :=
  match tree.named.find? (·.kind == "export_clause") with
  | some clause =>
    return .exportNamedDeclaration none (← clause.named.mapM (exportSpecifier source))
  | none => return unsupported source tree

/-- An export. One of what another module exports is kept as its text. -/
def exportStatement (tree : Tree) : Except ParseError Node :=
  if (tree.child? "source").isSome then return unsupported source tree
  else
    match tree.child? "declaration", tree.child? "value" with
    | some declared, _ => do
      let declaration ← lower declared
      if tree.hasToken "default" then return .exportDefaultDeclaration declaration
      else return .exportNamedDeclaration (some declaration) []
    | none, some value => return .exportDefaultDeclaration (← lower value)
    | none, none => exportNames source tree

/-! ### All statements -/

/-- The rule of a kind of statement. -/
def statementRule? (kind : String) : Option Lower :=
  match kind with
  | "expression_statement" => some fun tree =>
    return .expressionStatement (← lowerFirst source lower "expression" tree) []
  | "statement_block" => some fun tree => return .blockStatement (← lowerNamed lower tree)
  | "empty_statement" => some fun _ => return .emptyStatement
  | "debugger_statement" => some fun _ => return .debuggerStatement
  | "return_statement" => some fun tree => return .returnStatement (← lowerFirst? lower tree)
  | "throw_statement" => some fun tree =>
    return .throwStatement (← lowerFirst source lower "argument" tree)
  | "break_statement" => some fun tree => return breakStatement source tree
  | "if_statement" => some (ifStatement source lower)
  | "switch_statement" => some (switchStatement source lower)
  | "try_statement" => some (tryStatement source lower)
  | "lexical_declaration" | "variable_declaration" => some (declaration source lower)
  | "function_declaration" => some (functionDeclaration source lower)
  | "import_statement" => some (importStatement source)
  | "export_statement" => some (exportStatement source lower)
  | _ => none

end ScriptForms.Lowering
