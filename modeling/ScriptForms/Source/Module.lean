import ScriptForms.Source.Class
import ScriptForms.Source.Function
import ScriptForms.Source.Literal

/-!
# Declarations, imports and exports
-/

namespace ScriptForms.Source

/-! ### Variables -/

/-- A variable with its initial value, which may be left out. -/
def declarator (g : Grammar) : Parser Tree :=
  construct "variable_declarator" do
    let target ← under "name" (bindingTarget g)
    let value ← Parser.option (do gap true; symbol "="; under "value" (g.expression true))
    return target :: value.toList

/-- The keyword of a declaration, with the rule of the declaration. After `let` there must be
something to bind in the same statement. -/
def declarationKind : Parser (String × List Tree) :=
  (do
    keyword "var"
    return ("variable_declaration", [])) <|>
  (return ("lexical_declaration", [← under "kind" (keywordMark "const")])) <|>
  (do
    let word ← under "kind" (keywordMark "let")
    gap true
    (discard Source.word <|> symbol "[" <|> symbol "\x7b").ahead
    return ("lexical_declaration", [word]))

/-- A declaration of variables. -/
def declaration (g : Grammar) : Parser Tree := do
  let start ← place
  let (kind, words) ← declarationKind
  let declarators ← (declarator g).separated1 (gap true *> symbol ",")
  semicolon (declarators.getLast?.any fun tree => (tree.child? "value").isNone)
  nodeFrom start kind (words ++ declarators)

/-! ### Imports -/

/-- The name of an export: a word or a string. -/
def exportName : Parser Tree := identifier <|> stringLiteral

/-- The source of an import or export. -/
def sourceClause : Parser Tree := keyword "from" *> under "source" stringLiteral

/-- An import of a name, under another name or its own. A string needs another name. -/
def importSpecifier : Parser Tree :=
  construct "import_specifier"
    ((do
      let imported ← under "name" exportName
      keyword "as"
      return [imported, ← under "alias" identifier]) <|>
    (return [← under "name" identifier]))

/-- Specifiers in braces. -/
def specifiers (kind : String) (specifier : Parser Tree) : Parser Tree :=
  construct kind do
    symbol "\x7b"
    let trees ← specifier.separated (symbol ",")
    discard (symbol ",").option
    symbol "\x7d"
    return trees

/-- An import of everything under a name. -/
def namespaceImport : Parser Tree :=
  construct "namespace_import" do
    symbol "*"
    keyword "as"
    return [← identifier]

/-- An import of everything or of several names. -/
def bulkImport : Parser Tree := namespaceImport <|> specifiers "named_imports" importSpecifier

/-- The names of an import. -/
def importClause : Parser Tree :=
  construct "import_clause"
    ((return [← bulkImport]) <|>
    (do
      let name ← identifier
      let others ← (symbol "," *> bulkImport).option
      return name :: others.toList))

/-- The attributes of an import, which have no effect. -/
def importAttributes (g : Grammar) : Parser Unit := do
  goOn true
  keyword "with"
  discard (objectLiteral g)

/-- An import. -/
def importDeclaration (g : Grammar) : Parser Tree :=
  construct "import_statement" do
    keyword "import"
    let parts ←
      (return [← under "source" stringLiteral]) <|>
      (do
        let clause ← importClause
        return [clause, ← sourceClause])
    discard (importAttributes g).option
    semicolon true
    return parts

/-! ### Exports -/

/-- An export of a name, under another name or its own. -/
def exportSpecifier : Parser Tree :=
  construct "export_specifier" do
    let localName ← under "name" exportName
    let exported ← (keyword "as" *> under "alias" exportName).option
    return localName :: exported.toList

/-- The names of an export. -/
def exportClause : Parser Tree := specifiers "export_clause" exportSpecifier

/-- A declaration of variables, a function or a class. -/
def anyDeclaration (g : Grammar) : Parser Tree :=
  declaration g <|> functionDeclaration g <|> classDeclaration g

/-- An export of what another module exports. -/
def exportFrom : Parser (List Tree) := do
  discard exportClause <|>
    (do symbol "*"; discard (keyword "as" *> exportName).option)
  goOn true
  let origin ← sourceClause
  semicolon true
  return [origin]

/-- An export of names. -/
def exportNames : Parser (List Tree) := do
  let clause ← exportClause
  semicolon true
  return [clause]

/-- A default export. -/
def exportDefault (g : Grammar) : Parser (List Tree) := do
  let word ← keywordMark "default"
  (return [word, ← under "declaration" (anyDeclaration g)]) <|>
    (do
      let value ← under "value" (g.expression true)
      semicolon false
      return [word, value])

/-- An export. -/
def exportDeclaration (g : Grammar) : Parser Tree :=
  construct "export_statement" do
    decorators g
    keyword "export"
    exportFrom <|>
      exportNames <|>
      exportDefault g <|>
      (return [← under "declaration" (anyDeclaration g)])

end ScriptForms.Source
