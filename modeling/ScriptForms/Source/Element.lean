import ScriptForms.Source.Grammar

/-!
# Elements

An element has a name, attributes and, unless it closes itself, children and a closing tag, whose
name is not compared. Text between elements stands for itself; text that is nothing but line breaks
and the blanks behind them is no child at all.
-/

namespace ScriptForms.Source

/-- Whether text between elements is more than line breaks and the blanks behind them. -/
def hasContent (behindBreak : Bool) : List Char → Bool
  | [] => false
  | c :: rest =>
    if c = '\n' then hasContent true rest
    else if behindBreak && isPlainSpace c then hasContent true rest
    else true

/-- The name of an element, in one part or in several. -/
def tagName : Parser Tree := do
  let start ← place
  (do
    let parts ← word.separated1 (symbol ".")
    guard (1 < parts.length)
    nodeFrom start "member_expression" []) <|>
  (do
    discard (token elementName)
    symbol ":"
    discard (token elementName)
    nodeFrom start "jsx_namespace_name" []) <|>
  leaf "identifier" (token elementName)

/-- An expression in braces, which may be left out. -/
def container (g : Grammar) : Parser Tree :=
  construct "jsx_expression" do
    char '\x7b'
    let tree ← (spread g <|> sequence g false).option
    char '\x7d'
    return tree.toList

/-- The value of an attribute. -/
def attributeValue (g : Grammar) : Parser Tree :=
  leaf "string" (token attributeString) <|> container g <|> g.element

/-- The name of an attribute, in one part or in two. -/
def attributeName : Parser Tree := do
  let start ← place
  discard (token elementName)
  let qualified ← (discard (token (.text ":")) *> token elementName).option
  nodeFrom start (if qualified.isSome then "jsx_namespace_name" else "property_identifier") []

/-- An attribute, or a spread in the place of one. -/
def attributeRule (g : Grammar) : Parser Tree :=
  container g <|>
  construct "jsx_attribute" do
    let name ← attributeName
    let value ← (discard (token (.text "=")) *> attributeValue g).option
    return name :: value.toList

/-- Text between elements. -/
def textChild : Parser Tree := do
  let cursor ← get
  let text ← exactly elementText
  guard (hasContent false text)
  nodeFrom cursor.offset "jsx_text" []

/-- A reference to a character. -/
def referenceChild : Parser Tree := leafHere "html_character_reference" characterReference

/-- A child of an element. -/
def child (g : Grammar) : Parser Tree :=
  textChild <|>
  (do
    discard (exactly spaces)
    referenceChild <|> container g <|> markupComment <|>
      (do (exactly (.text "</")).notAhead; g.element))

/-- A closing tag. -/
def closingTag : Parser Tree :=
  leaf "jsx_closing_element" do
    discard (token (.text "</"))
    discard tagName.option
    discard (token (.text ">"))

/-- The rest of an element that starts at an offset, behind its opening tag with the given parts. -/
def elementRest (g : Grammar) (start : Nat) (parts : List Tree) : Parser Tree := do
  let tag ← nodeFrom start "jsx_opening_element" parts
  let children ← Parser.many (child g)
  let closing ← closingTag
  nodeFrom start "jsx_element"
    (tag.under "open_tag" :: (children ++ [closing.under "close_tag"]))

/-- An element, with or without a name. -/
def elementRule (g : Grammar) : Parser Tree := do
  let start ← place
  discard (exactly (.text "<"))
  (do
    discard (token (.text ">"))
    elementRest g start []) <|>
  (do
    let name ← under "name" tagName
    let attributes ← Parser.many (under "attribute" (attributeRule g))
    (do
      discard (token (.text "/>"))
      nodeFrom start "jsx_self_closing_element" (name :: attributes)) <|>
    (do
      discard (token (.text ">"))
      elementRest g start (name :: attributes)))

end ScriptForms.Source
