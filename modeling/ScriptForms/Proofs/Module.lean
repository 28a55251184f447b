import ScriptForms.Proofs.Legibility
import ScriptForms.Proofs.Locality
import ScriptForms.Proofs.Shadowing

/-!
# Imports and exports

A declaration that is exported stays what it is, and each name that it declares is exported behind
it. The names are found in the forms of the declaration, so that every way to define a name has to
be seen as one.

The name of an import or export may be any string. It is written into the name of a property as it
is, and what is read of the text has this property iff no character of the name ends an atom.

* `Rule.yields_declaredNames`: the definitions of a declaration define what it declares.
* `Node.forms_exportedDeclaration`: a declaration together with its exports.
* `Form.ReadsAs`: what is read of the text of a form.
* `Node.specifierTokens`: the list that an import or export of a name asks for.
* `Node.forms_specifiers`: which names survive in the text.
-/

namespace ScriptForms

open Form Token

/-! ### Declarations -/

namespace Node

/-- The name that each definition of a declaration declares. -/
def declaredNames : Node → List (Option String)
  | .variableDeclaration _ declarations => declarations.map declaredName?
  | .functionDeclaration id _ _ => [id.identifier?]
  | _ => []

end Node

namespace Form

/-- The list `(set! (.-name js/exports) name)`. -/
def exported (name : String) : Form :=
  .list [.symbol "set!", .list [.symbol (".-" ++ name), .symbol "js/exports"], .symbol name]

end Form

namespace Rule

variable {visit : Visit}

theorem bindingName_eq_ok {node : Node} {form : Form} (h : bindingName node = .ok form) :
    ∃ name, node.identifier? = some name ∧ form = .symbol name := by
  cases node with
  | identifier name => exact ⟨name, rfl, (Except.ok.inj h).symm⟩
  | _ => cases h

theorem yields_function_definedName? (visit : Visit) (name : String) (params : List Node)
    (body : Node) :
    Yields (function visit "defn" (some (.symbol name)) params body) (·.definedName? = some name) :=
  yields_bind (fun _ _ => trivial) fun _ _ => yields_bind (fun _ _ => trivial) fun _ _ =>
    yields_pure rfl

/-- However a variable is defined, the form defines the name that is declared. -/
theorem yields_declarator_definedName? (visit : Visit) (node : Node) :
    Yields (declarator visit node) fun form =>
      ∃ name, node.declaredName? = some name ∧ form.definedName? = some name := by
  cases node with
  | variableDeclarator id init =>
    refine yields_bind (fun _ h => bindingName_eq_ok h) fun symbol hsymbol => ?_
    obtain ⟨name, hname, rfl⟩ := hsymbol
    have hdefines : ∀ {form : Form}, form.definedName? = some name →
        ∃ text, id.identifier? = some text ∧ form.definedName? = some text :=
      fun hform => ⟨name, hname, hform⟩
    -- A function without a name for itself is defined by `defn`, anything else by `def`.
    split
    · exact (yields_function_definedName? visit name _ _).imp fun _ => hdefines
    · exact (yields_function_definedName? visit name _ _).imp fun _ => hdefines
    · exact yields_bind (fun _ _ => trivial) fun _ _ => yields_pure (hdefines rfl)
    · exact yields_pure (hdefines rfl)
  | _ => exact yields_error _

/-- What has the same name on both sides of two lists has a list of names. -/
theorem exists_names_of_forall₂ {nodes : List Node} {forms : List Form}
    (h : List.Forall₂ (fun (node : Node) (form : Form) =>
      ∃ name, node.declaredName? = some name ∧ form.definedName? = some name) nodes forms) :
    ∃ names : List String, nodes.map Node.declaredName? = names.map some ∧
      List.Forall₂ (fun form name => form.definedName? = some name) forms names := by
  induction h with
  | nil => exact ⟨[], rfl, .nil⟩
  | cons hfirst _ ih =>
    obtain ⟨name, hdeclared, hdefined⟩ := hfirst
    obtain ⟨names, hnames, hall⟩ := ih
    refine ⟨name :: names, ?_, .cons hdefined hall⟩
    rw [List.map_cons, hdeclared, hnames, List.map_cons]

/-- The definitions of a declaration define what it declares, one name each. -/
theorem yields_declaredNames (scope : Scope) {declaration : Node}
    (hd : declaration.isDefinition) :
    Yields (declaration.forms scope) fun definitions => ∃ names : List String,
      declaration.declaredNames = names.map some ∧
      List.Forall₂ (fun definition name => definition.definedName? = some name) definitions
        names := by
  rw [Node.forms_eq]
  cases declaration with
  | variableDeclaration kind declarations =>
    intro definitions h
    exact exists_names_of_forall₂ <| (mapM_eq_ok_iff.1 h).imp fun node form hform =>
      yields_declarator_definedName? _ node form hform
  | functionDeclaration id params body =>
    refine yields_bind (fun _ h => bindingName_eq_ok h) fun symbol hsymbol => ?_
    obtain ⟨name, hname, rfl⟩ := hsymbol
    refine yields_bind (yields_function_definedName? _ name params body) fun form hform => ?_
    exact yields_pure ⟨[name], by rw [Node.declaredNames, hname]; rfl, .cons hform .nil⟩
  | unsupported kind text => exact yields_error _
  | _ => cases hd

theorem filterMap_definedName?_eq {definitions : List Form} {names : List String}
    (h : List.Forall₂ (fun definition name => definition.definedName? = some name) definitions
      names) : definitions.filterMap definedName? = names := by
  induction h with
  | nil => rfl
  | cons hfirst _ ih => rw [List.filterMap_cons_some hfirst, ih]

end Rule

namespace Node

open Rule

/-- An exported declaration is one `do` list: the definitions of the declaration as they are when it
is not exported, and behind them the export of each declared name, one for each definition and in
their order. It fails iff the declaration fails, for the same reason. -/
theorem forms_exportedDeclaration (scope : Scope) {declaration : Node}
    (hd : declaration.isDefinition) (specifiers : List Node) (context : Context) :
    (∀ definitions, declaration.forms scope = .ok definitions → ∃ names : List String,
      declaration.declaredNames = names.map some ∧
      List.Forall₂ (fun definition name => definition.definedName? = some name) definitions
        names ∧
      (exportNamedDeclaration (some declaration) specifiers).forms scope context =
        .ok [.list (.symbol "do" :: definitions ++ names.map exported)]) ∧
    ∀ fault, (exportNamedDeclaration (some declaration) specifiers).forms scope context =
        .error fault ↔ declaration.forms scope = .error fault := by
  have hforms : (exportNamedDeclaration (some declaration) specifiers).forms scope context = do
      let definitions ← declaration.forms scope
      return [.call "do" (definitions ++ (definitions.filterMap definedName?).map exported)] :=
    forms_eq scope _ context
  constructor
  · intro definitions hdefinitions
    obtain ⟨names, hnames, hall⟩ := yields_declaredNames scope hd definitions hdefinitions
    refine ⟨names, hnames, hall, ?_⟩
    rw [hforms, hdefinitions, ok_bind, filterMap_definedName?_eq hall]
    rfl
  · intro fault
    rw [hforms]
    cases declaration.forms scope with
    | error cause => exact Iff.rfl
    | ok definitions => exact iff_of_false (fun h => by cases h) (fun h => by cases h)

/-- The declaration `var f = (x) => x, a, f = function g() {}`. -/
def repeatedNames : Node :=
  .variableDeclaration .var
    [.variableDeclarator (.identifier "f")
      (some (.arrowFunctionExpression [.identifier "x"] (.identifier "x"))),
    .variableDeclarator (.identifier "a") none,
    .variableDeclarator (.identifier "f")
      (some (.functionExpression (some (.identifier "g")) [] (.blockStatement [])))]

/-- The forms of `repeatedNames`. -/
def repeatedDefinitions : List Form :=
  [.call "defn" [.symbol "f", .vector [.symbol "x"], .symbol "x"],
    .call "def" [.symbol "a", .nil],
    .call "def" [.symbol "f", .call "fn" [.symbol "g", .vector []]]]

theorem forms_exported_repeatedNames :
    repeatedNames.forms (fun _ => false) = .ok repeatedDefinitions ∧
      (exportNamedDeclaration (some repeatedNames) []).forms (fun _ => false) =
        .ok [.list (.symbol "do" :: repeatedDefinitions ++ ["f", "a", "f"].map exported)] := by
  have hforms : repeatedNames.forms (fun _ => false) = .ok repeatedDefinitions := rfl
  obtain ⟨names, hnames, -, hexport⟩ :=
    (forms_exportedDeclaration (fun _ => false) (by rfl) [] .value).1 repeatedDefinitions hforms
  obtain rfl : ["f", "a", "f"] = names :=
    List.map_injective_iff.2 (fun _ _ => Option.some.inj) hnames
  exact ⟨hforms, hexport⟩

end Node

/-! ### What is read of a form -/

namespace Form

/-- The text of a form, laid out, is read as the tokens. -/
def ReadsAs (form : Form) (tokens : List Token) : Prop :=
  ∃ text placed, form.layOut .compact = .ok text ∧ Token.scan text.toList = .ok placed ∧
    placed.map Prod.snd = tokens

theorem ReadsAs.proper {form : Form} {tokens : List Token} (h : form.ReadsAs tokens) :
    ∀ token ∈ tokens, token.Proper := by
  obtain ⟨text, placed, -, hscan, hplaced⟩ := h
  exact (spells_iff.2 ⟨placed, hscan, hplaced⟩).proper

/-- The form reads back wherever it stands, and can stand anywhere. -/
structure Faithful (form : Form) : Prop where
  readsBack : ReadsBack form
  noProgram : ∀ m ∈ form.subforms, ¬m.isProgram

/-- A text that is one atom is read as a symbol, also if it is a string. -/
theorem faithful_symbol {name : String} (h : (Token.atom name.toList).Proper) :
    Faithful (.symbol name) where
  readsBack := by
    intro text rest tokens he hr hrest
    cases he
    rcases h with hword | hstring
    · exact .word hword (hr.breaks hword) hrest
    · exact .string hstring hrest
  noProgram := forall_subforms_iff.2 ⟨by simp [isProgram], by simp [parts]⟩

theorem faithful_string (value : String) : Faithful (.string value) where
  readsBack := readsBack (.string value) (forall_subforms_iff.2 ⟨trivial, by simp [parts]⟩)
  noProgram := forall_subforms_iff.2 ⟨by simp [isProgram], by simp [parts]⟩

theorem faithful_call {head : String} (hh : IsWord head.toList) {args : List Form}
    (h : ∀ form ∈ args, Faithful form) : Faithful (.call head args) := by
  have hall : ∀ form ∈ .symbol head :: args, Faithful form :=
    List.forall_mem_cons.2 ⟨faithful_symbol (.inl hh), h⟩
  refine ⟨readsBack_list fun form hm => (hall form hm).readsBack, forall_subforms_iff.2 ⟨?_, ?_⟩⟩
  · simp [call, isProgram]
  · exact fun form hm => (hall form hm).noProgram

/-- A faithful form is read as its tokens. -/
theorem Faithful.readsAs {form : Form} (h : Faithful form) : form.ReadsAs form.tokens := by
  obtain ⟨hroot, hparts⟩ := forall_subforms_iff.1 h.noProgram
  have hbelow : ∀ m ∈ form.descendants, ¬m.isProgram := fun m hm => by
    obtain ⟨part, hpart, hm⟩ := List.mem_flatMap.1 hm
    exact hparts part hpart m hm
  obtain ⟨raw, hraw⟩ := (succeeds_rawText form).2 hbelow
  obtain ⟨text, placed, hprint, happly, hscan, hplaced⟩ :=
    layout_of_spells hraw (ReadsBack.spells_rawText h.readsBack hroot hraw)
  exact ⟨text, placed, by simp [layOut, hprint, happly, Except.mapError], hscan, hplaced⟩

end Form

/-! ### Names of imports and exports -/

namespace Token

/-- The atom of a text. -/
def word (text : String) : Token := .atom text.toList

/-- Tokens in parentheses. -/
def group (tokens : List Token) : List Token := .opening .round :: tokens ++ [.closing .round]

/-- A text behind characters that start no string and end no atom is part of their atom iff it has
no character that ends one. -/
theorem proper_word_append {front : String} (hne : front.toList ≠ [])
    (hword : ∀ c ∈ front.toList, isDelimiter c = false) (hhash : front.toList.head? ≠ some '#')
    (text : String) :
    (word (front ++ text)).Proper ↔ ∀ c ∈ text.toList, isDelimiter c = false := by
  obtain ⟨first, rest, hfront⟩ := List.exists_cons_of_ne_nil hne
  rw [word, Proper, String.toList_append, hfront]
  rw [hfront] at hword hhash
  constructor
  · rintro (⟨-, hall⟩ | ⟨body, hbody | hbody, -⟩)
    · exact fun c hc => hall c (List.mem_append_right _ hc)
    · obtain ⟨rfl, -⟩ := List.cons.inj hbody
      exact absurd (hword '"' (by simp)) (by decide)
    · obtain ⟨rfl, -⟩ := List.cons.inj hbody
      exact absurd rfl hhash
  · exact fun h => .inl ⟨by simp, List.forall_mem_append.2 ⟨hword, h⟩⟩

/-- The reader of a property is one atom iff no character of the name ends an atom. -/
theorem proper_property (name : String) :
    (word (".-" ++ name)).Proper ↔ ∀ c ∈ name.toList, isDelimiter c = false :=
  proper_word_append (by decide) (by decide) (by decide) name

end Token

namespace Node

open Rule

/-- The names of an import, or of an export without a declaration. -/
def specifiers : Node → List Node
  | .importDeclaration specifiers _ | .exportNamedDeclaration none specifiers => specifiers
  | _ => []

/-- The module that an import names. -/
def moduleName : Node → String
  | .importDeclaration _ source => source
  | _ => ""

/-- The name of a specifier inside of the script. -/
def localName? : Node → Option String
  | .importSpecifier _ name | .importDefaultSpecifier name | .importNamespaceSpecifier name
  | .exportSpecifier name _ => some name
  | _ => none

/-- The property that a specifier reads of a module, or writes. -/
def moduleProperty? : Node → Option String
  | .importSpecifier imported _ => some imported
  | .importDefaultSpecifier _ => some "default"
  | .exportSpecifier _ exported => some exported
  | _ => none

/-- The tokens of `(js/require "source")`. -/
def requireTokens (source : String) : List Token :=
  group [word "js/require", .atom (Json.quote source.toList)]

/-- The tokens of the list that a specifier asks for, with each name as one atom:
`(def name (.-property (js/require "source")))` for an import of a property, `(def name (js/require
"source"))` for an import of everything, and `(set! (.-property js/exports) name)` for an export. -/
def specifierTokens (source : String) : Node → List Token
  | .importSpecifier imported name =>
    group (word "def" :: word name :: group (word (".-" ++ imported) :: requireTokens source))
  | .importDefaultSpecifier name =>
    group (word "def" :: word name :: group (word ".-default" :: requireTokens source))
  | .importNamespaceSpecifier name => group (word "def" :: word name :: requireTokens source)
  | .exportSpecifier name exported =>
    group (word "set!" :: group [word (".-" ++ exported), word "js/exports"] ++ [word name])
  | _ => []

/-- The names of a specifier can stand in a text: the local name is one atom, and no character of
the property ends an atom. -/
def HasLegibleNames (specifier : Node) : Prop :=
  (∀ name ∈ specifier.localName?, (word name).Proper) ∧
    ∀ property ∈ specifier.moduleProperty?, ∀ c ∈ property.toList, isDelimiter c = false

/-- What is read of the form of a specifier: it is the list that the specifier asks for iff the
names can stand in a text, and nothing else that is read has the property in it. -/
structure KeepsNames (source : String) (specifier : Node) (form : Form) : Prop where
  reads_iff : form.ReadsAs (specifier.specifierTokens source) ↔ specifier.HasLegibleNames
  legible_of_mem : ∀ property ∈ specifier.moduleProperty?, ∀ tokens, form.ReadsAs tokens →
    word (".-" ++ property) ∈ tokens → ∀ c ∈ property.toList, isDelimiter c = false

variable {source : String} {specifier : Node} {form : Form}

/-- It is enough that the form has the tokens that are asked for, these name the specifier, and the
form is faithful if the names can stand in a text. -/
theorem keepsNames_of_tokens (htokens : form.tokens = specifier.specifierTokens source)
    (hlocal : ∀ name ∈ specifier.localName?, word name ∈ specifier.specifierTokens source)
    (hproperty : ∀ property ∈ specifier.moduleProperty?,
      word (".-" ++ property) ∈ specifier.specifierTokens source)
    (h : specifier.HasLegibleNames → Faithful form) : KeepsNames source specifier form where
  reads_iff := by
    constructor
    · intro hreads
      refine ⟨fun name hn => hreads.proper _ (hlocal name hn), fun property hp => ?_⟩
      exact (proper_property property).1 (hreads.proper _ (hproperty property hp))
    · exact fun hn => htokens ▸ (h hn).readsAs
  legible_of_mem := fun property _ tokens hreads hm =>
    (proper_property property).1 (hreads.proper _ hm)

theorem faithful_requireModule (source : String) : Faithful (requireModule source) :=
  faithful_call (by decide) (List.forall_mem_singleton.2 (faithful_string source))

theorem faithful_property {name : String} (h : ∀ c ∈ name.toList, isDelimiter c = false)
    {form : Form} (hf : Faithful form) : Faithful (property name form) := by
  refine faithful_call ?_ (List.forall_mem_singleton.2 hf)
  rw [dotGetterName, String.toList_append]
  exact ⟨by simp, List.forall_mem_append.2 ⟨by decide, h⟩⟩

theorem faithful_definition {name : String} (h : (word name).Proper) {value : Form}
    (hv : Faithful value) : Faithful (.call "def" [.symbol name, value]) :=
  faithful_call (by decide) <|
    List.forall_mem_cons.2 ⟨faithful_symbol h, List.forall_mem_singleton.2 hv⟩

theorem faithful_exportForm {name : String} (h : ∀ c ∈ name.toList, isDelimiter c = false)
    {value : Form} (hv : Faithful value) : Faithful (exportForm name value) :=
  faithful_call (by decide) <| List.forall_mem_cons.2
    ⟨faithful_property h (faithful_symbol (.inl (by decide))), List.forall_mem_singleton.2 hv⟩

/-- What is asked for by an import is defined. -/
theorem keepsNames_importSpecifier (source : String) (h : specifier.isImportName) :
    ∃ form, Rule.importSpecifier source specifier = .ok form ∧
      KeepsNames source specifier form := by
  cases specifier with
  | importSpecifier imported name =>
    refine ⟨_, rfl, keepsNames_of_tokens rfl ?_ ?_ fun hn => ?_⟩
    · rintro _ ⟨⟩
      simp [specifierTokens, group]
    · rintro _ ⟨⟩
      simp [specifierTokens, group]
    · exact faithful_definition (hn.1 name rfl)
        (faithful_property (hn.2 imported rfl) (faithful_requireModule source))
  | importDefaultSpecifier name =>
    refine ⟨_, rfl, keepsNames_of_tokens rfl ?_ ?_ fun hn => ?_⟩
    · rintro _ ⟨⟩
      simp [specifierTokens, group]
    · rintro _ ⟨⟩
      simp [specifierTokens, group]
    · exact faithful_definition (hn.1 name rfl)
        (faithful_property (by decide) (faithful_requireModule source))
  | importNamespaceSpecifier name =>
    refine ⟨_, rfl, keepsNames_of_tokens rfl ?_ ?_ fun hn => ?_⟩
    · rintro _ ⟨⟩
      simp [specifierTokens, group]
    · rintro _ ⟨⟩
    · exact faithful_definition (hn.1 name rfl) (faithful_requireModule source)
  | _ => cases h

/-- What is asked for by an export is stored. -/
theorem keepsNames_exportSpecifier (source : String) (h : specifier.isExportName) :
    ∃ form, Rule.exportSpecifier specifier = .ok form ∧ KeepsNames source specifier form := by
  cases specifier with
  | exportSpecifier name exported =>
    refine ⟨_, rfl, keepsNames_of_tokens rfl ?_ ?_ fun hn => ?_⟩
    · rintro _ ⟨⟩
      simp [specifierTokens, group]
    · rintro _ ⟨⟩
      simp [specifierTokens, group]
    · exact faithful_exportForm (hn.2 exported rfl) (faithful_symbol (hn.1 name rfl))
  | _ => cases h

theorem exists_mapM_eq_ok {rule : Node → Except Fault Form} {r : Node → Form → Prop}
    {nodes : List Node} (h : ∀ node ∈ nodes, ∃ form, rule node = .ok form ∧ r node form) :
    ∃ forms, nodes.mapM rule = .ok forms ∧ List.Forall₂ r nodes forms := by
  induction nodes with
  | nil => exact ⟨[], rfl, .nil⟩
  | cons node nodes ih =>
    rw [List.forall_mem_cons] at h
    obtain ⟨form, hform, hr⟩ := h.1
    obtain ⟨forms, hforms, hall⟩ := ih h.2
    refine ⟨form :: forms, ?_, .cons hr hall⟩
    rw [List.mapM_cons, hform, ok_bind, hforms]
    rfl

/-- Every import and export of names has a form for each of its names, whatever the names are. What
is read of the form is the list that is asked for iff the names can stand in a text: the name in the
script is one atom, and no character of the property ends an atom. -/
theorem forms_specifiers (scope : Scope) {node : Node} (hg : node.Grammatical)
    (hs : node.specifiers ≠ []) (context : Context) :
    ∃ forms, node.forms scope context = .ok forms ∧
      List.Forall₂ (KeepsNames node.moduleName) node.specifiers forms := by
  have hfits := (grammatical_iff.1 hg).1
  rw [forms_eq]
  cases node with
  | importDeclaration specifiers source =>
    have hforms : Rule.step scope (fun m c => m.forms scope c)
        (importDeclaration specifiers source) context =
          specifiers.mapM (Rule.importSpecifier source) :=
      if_neg (by simpa [Node.specifiers] using hs)
    rw [hforms]
    exact exists_mapM_eq_ok fun specifier hm =>
      keepsNames_importSpecifier source (List.all_eq_true.1 hfits specifier hm)
  | exportNamedDeclaration declaration specifiers =>
    cases declaration with
    | some declaration => exact absurd rfl hs
    | none =>
      exact exists_mapM_eq_ok fun specifier hm =>
        keepsNames_exportSpecifier "" (List.all_eq_true.1 hfits specifier hm)
  | _ => exact absurd rfl hs

/-- The statement `import d, { "p-1" as p } from "m;"`. -/
def propertyImport : Node :=
  .importDeclaration [.importDefaultSpecifier "d", .importSpecifier "p-1" "p"] "m;"

theorem forms_propertyImport : ∃ default property,
    propertyImport.forms (fun _ => false) = .ok [default, property] ∧
      property.ReadsAs (specifierTokens "m;" (.importSpecifier "p-1" "p")) := by
  have hgrammatical : propertyImport.Grammatical := by
    unfold Grammatical
    decide
  obtain ⟨forms, hforms, hkept⟩ :=
    forms_specifiers (fun _ => false) hgrammatical (by decide) .value
  obtain ⟨default, property, rfl⟩ := List.length_eq_two.1 hkept.length_eq.symm
  obtain ⟨-, hkept⟩ := List.forall₂_cons.1 hkept
  refine ⟨default, property, hforms, (List.forall₂_cons.1 hkept).1.reads_iff.2 ⟨?_, ?_⟩⟩
  · rintro _ ⟨⟩
    exact .inl (by decide)
  · rintro _ ⟨⟩
    decide

/-- The statement `export { x as "a b" };`. -/
def spacedExport : Node := .exportNamedDeclaration none [.exportSpecifier "x" "a b"]

/-- The form of `spacedExport`. -/
def spacedForm : Form :=
  .list [.symbol "set!", .list [.symbol ".-a b", .symbol "js/exports"], .symbol "x"]

/-- The statement `export { x as "a b" };` is read as a list that sets the property `a` of two
things: nothing that is read of it has the property `a b`. -/
theorem forms_spacedExport_split :
    (transform (fun _ => false) .compact "export \x7b x as \"a b\" \x7d;").toOption =
        some "(set! (.-a b js/exports) x)\n" ∧
      spacedExport.forms (fun _ => false) = .ok [spacedForm] ∧
      spacedForm.ReadsAs (group (word "set!" ::
        group [word ".-a", word "b", word "js/exports"] ++ [word "x"])) ∧
      ¬spacedForm.ReadsAs (specifierTokens "" (.exportSpecifier "x" "a b")) := by
  refine ⟨?_, rfl, ?_, fun h => ?_⟩
  · decide +kernel
  · exact ⟨"(set! (.-a b js/exports) x)\n", _, by rfl, by rfl, by rfl⟩
  · have hproperty := (proper_property "a b").1 (h.proper _ (by decide))
    exact absurd hproperty (by decide)

end Node

end ScriptForms
