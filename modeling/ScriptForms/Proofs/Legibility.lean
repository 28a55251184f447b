import ScriptForms.Proofs.Agreement.Convert
import ScriptForms.Proofs.Form.Balance
import ScriptForms.Transform

/-!
# Every converted script has a text

If the names, operators, numbers, comments and patterns of a script can be read back, so can every
text of its form. The form is therefore printed, the print has a layout, and the layout has exactly
the tokens of the form.

* `Node.Legible`: the texts of a tree can be read back.
* `isWord_of_written`: every word that the rules write is one token.
* `Form.Printable`, `Comparison.legibility`: what the rules build can be printed.
* `Node.toProgram_printable`: the form of a script, from its print to the tokens of its layout.
-/

namespace ScriptForms

open Node Form Token

/-! ### Words -/

theorem isWord_append {front text : List Char} (hf : ∀ c ∈ front, isDelimiter c = false)
    (h : IsWord text) : IsWord (front ++ text) :=
  ⟨by simp [h.1], List.forall_mem_append.2 ⟨hf, h.2⟩⟩

/-- The code points of the characters that end an atom. -/
def delimiterCodes : List Nat :=
  List.range' 0x09 5 ++ List.range' 0x2000 11 ++ [0x20, 0x22, 0x28, 0x29, 0x3b, 0x5b, 0x5d, 0x7b,
    0x7d, 0x85, 0xa0, 0x1680, 0x2028, 0x2029, 0x202f, 0x205f, 0x3000]

theorem toNat_mem_delimiterCodes {c : Char} (h : isDelimiter c) : c.toNat ∈ delimiterCodes := by
  simp only [isDelimiter, Bool.or_eq_true, decide_eq_true_eq] at h
  rcases h with (((ho | hc) | rfl) | rfl) | hb
  · unfold Bracket.ofOpening? at ho
    split_ifs at ho with h₁ h₂ h₃
    all_goals first | (subst c; decide) | cases ho
  · unfold Bracket.ofClosing? at hc
    split_ifs at hc with h₁ h₂ h₃
    all_goals first | (subst c; decide) | cases hc
  · decide
  · decide
  · simp only [Text.isBlank, Bool.or_eq_true, Bool.and_eq_true, decide_eq_true_eq, beq_iff_eq,
      or_assoc] at hb
    simp only [delimiterCodes, List.mem_append, List.mem_range'_1, List.mem_cons,
      List.not_mem_nil, or_false]
    rcases hb with h | h | h | h | h | h | h | h | h | h | h <;> omega

/-- No character that ends an atom may stand in a keyword of an object. -/
theorem isDelimiter_of_isKeywordSafe {text : List Char} (h : Rule.isKeywordSafe text) :
    ∀ c ∈ text, isDelimiter c = false := by
  have htable : ∀ code ∈ delimiterCodes, (Text.isWordChar (Char.ofNat code) ||
      "-_*+!?<>=$".toList.contains (Char.ofNat code)) = false := by
    decide +kernel
  intro c hc
  simp only [Rule.isKeywordSafe, Bool.and_eq_true, List.all_eq_true] at h
  -- All the delimiters are checked, since there are far fewer of them than of letters.
  by_contra hd
  have hcode := htable c.toNat (toNat_mem_delimiterCodes (by simpa using hd))
  rw [Char.ofNat_toNat] at hcode
  exact absurd (h.2 c hc) (by simp only [hcode]; decide)

theorem isWord_operatorName {operator : String} (h : IsWord operator.toList) :
    IsWord (Rule.operatorName operator).toList := by
  unfold Rule.operatorName
  split
  all_goals first | exact h | decide

/-- An operator that is more than `=` is a word without its final `=`. -/
theorem isWord_arithmeticOperator {operator : String} (h : IsWord operator.toList)
    (hne : operator ≠ "=") : IsWord (Rule.arithmeticOperator operator).toList := by
  unfold Rule.arithmeticOperator
  split
  · rename_i hlast
    obtain ⟨front, hfront⟩ := List.getLast?_eq_some_iff.1 hlast
    rw [String.toList_ofList, hfront, List.dropLast_concat]
    refine ⟨?_, fun c hc => h.2 c (by simp [hfront, hc])⟩
    rintro rfl
    exact hne (String.toList_injective hfront)
  · exact h

theorem isWord_of_mem_vocabulary : ∀ text ∈ vocabulary, IsWord text.toList := by
  decide +kernel

/-- Whatever the rules write, given words, is a word. -/
theorem isWord_of_written {text : String} (h : Written (fun text => IsWord text.toList) text) :
    IsWord text.toList := by
  cases h with
  | fixed h => exact isWord_of_mem_vocabulary text h
  | own h => exact h
  | host h | getter h | dotGetter h | method h =>
    simp only [hostName, getterName, dotGetterName, methodName, String.toList_append]
    exact isWord_append (by decide) h
  | operator h => exact isWord_operatorName h
  | arithmetic h hne => exact isWord_arithmeticOperator h hne
  | key h =>
    refine ⟨?_, isDelimiter_of_isKeywordSafe h⟩
    rintro hnil
    simp [hnil, Rule.isKeywordSafe] at h

/-! ### Forms -/

namespace Form

/-- Every form of the tree has a text that can be read back, and none is a program. -/
def Printable (form : Form) : Prop :=
  ∀ m ∈ form.subforms, m.HasLegibleText ∧ m.isProgram = false

theorem printable_iff {form : Form} :
    form.Printable ↔ (form.HasLegibleText ∧ form.isProgram = false) ∧
      ∀ part ∈ form.parts, part.Printable :=
  forall_subforms_iff

/-- A form without parts is printable if its own text can be read back. -/
theorem printable_atom {form : Form} (hp : form.parts = []) (hi : form.isProgram = false)
    (h : form.HasLegibleText) : form.Printable :=
  printable_iff.2 ⟨⟨h, hi⟩, by simp [hp]⟩

theorem printable_symbol {text : String} (h : IsWord text.toList) : (Form.symbol text).Printable :=
  printable_atom rfl rfl h

theorem printable_identifier (scope : Scope) {name : String} (h : IsWord name.toList)
    (context : Context) : (Rule.identifier scope name context).Printable := by
  unfold Rule.identifier
  split
  · split
    · exact printable_symbol (isWord_of_written (.host h))
    · exact printable_symbol h
  · exact printable_symbol (isWord_of_written (.getter h))
  · exact printable_symbol (isWord_of_written (.dotGetter h))
  · exact printable_symbol (isWord_of_written (.method h))

/-- The same printable form on both sides. -/
def SamePrintable (form other : Form) : Prop := form.Printable ∧ form = other

theorem samePrintable_self {form : Form} (h : form.Printable) : SamePrintable form form := ⟨h, rfl⟩

theorem forall₂_samePrintable {forms others : List Form} :
    List.Forall₂ SamePrintable forms others ↔
      (∀ form ∈ forms, form.Printable) ∧ forms = others := by
  rw [← List.forall₂_eq_eq_eq]
  exact List.forall₂_and_left forms others

/-- A form around related forms, none of which is a program, is printable if they are. -/
theorem samePrintable_of_forall₂ (build : List Form → Form)
    (hp : ∀ forms, (build forms).parts = forms)
    (hb : ∀ forms, (build forms).HasLegibleText ∧ (build forms).isProgram = false)
    {forms others : List Form} (h : List.Forall₂ SamePrintable forms others) :
    SamePrintable (build forms) (build others) := by
  obtain ⟨hforms, rfl⟩ := forall₂_samePrintable.1 h
  exact samePrintable_self (printable_iff.2 ⟨hb forms, by simpa [hp] using hforms⟩)

end Form

/-- The comparison of a conversion with itself: what it builds is printable. -/
def Comparison.legibility (scope : Scope) : Comparison where
  left := scope
  right := scope
  name := fun _ => True
  word := fun text => IsWord text.toList
  pattern := fun text => ¬endsEscaping text.toList
  commentLine := fun text => '\n' ∉ text.toList
  Related := SamePrintable
  receivers := by
    intro text hm
    exact ⟨trivial, by rcases List.mem_pair.1 hm with rfl | rfl <;> decide⟩
  identifier := fun _ hw context => samePrintable_self (printable_identifier scope hw context)
  symbol := fun h => samePrintable_self (printable_symbol (isWord_of_written h))
  keyword := fun h => samePrintable_self (printable_atom rfl rfl (isWord_of_written h).2)
  number := fun h => samePrintable_self (printable_atom rfl rfl h)
  string := fun _ => samePrintable_self (printable_atom rfl rfl trivial)
  boolean := fun _ => samePrintable_self (printable_atom rfl rfl trivial)
  regex := fun h _ => samePrintable_self (printable_atom rfl rfl h)
  comment := fun h => samePrintable_self (printable_atom rfl rfl h)
  marker := by
    intro form h
    cases form with
    | empty | leave => exact samePrintable_self (printable_atom rfl rfl trivial)
    | _ => cases h
  list := samePrintable_of_forall₂ .list (fun _ => rfl) fun _ => ⟨trivial, rfl⟩
  vector := samePrintable_of_forall₂ .vector (fun _ => rfl) fun _ => ⟨trivial, rfl⟩
  hashMap := samePrintable_of_forall₂ .hashMap (fun _ => rfl) fun _ => ⟨trivial, rfl⟩
  mapEntry := by
    rintro key _ value _ ⟨hk, rfl⟩ ⟨hv, rfl⟩
    exact samePrintable_self (printable_iff.2 ⟨⟨trivial, rfl⟩, by simp [parts, hk, hv]⟩)
  hostTagged := by
    rintro form _ ⟨h, rfl⟩
    have htag : IsWord "#js".toList := by decide
    exact samePrintable_self (printable_iff.2 ⟨⟨htag, rfl⟩, by simp [parts, h]⟩)
  isMarker_eq := by
    rintro form _ ⟨-, rfl⟩
    rfl

/-! ### Scripts -/

namespace Node

/-- The texts of the node itself can be read back: names, operators and numbers are words, comment
lines are single lines, and no pattern ends by escaping what follows it. -/
def HasLegibleTexts (node : Node) : Prop :=
  (∀ word ∈ node.words, IsWord word.toList) ∧
    (∀ pattern ∈ node.pattern?, ¬endsEscaping pattern.toList) ∧
    ∀ line ∈ node.commentLines, '\n' ∉ line.toList

instance (node : Node) : Decidable node.HasLegibleTexts := inferInstanceAs (Decidable (_ ∧ _))

/-- Every text of the tree can be read back. -/
def Legible (node : Node) : Prop := ∀ m ∈ node.subtrees, m.HasLegibleTexts

instance (node : Node) : Decidable node.Legible :=
  inferInstanceAs (Decidable (∀ m ∈ node.subtrees, m.HasLegibleTexts))

variable {node : Node}

theorem coversScript_legibility (h : node.IsScript) (hl : node.Legible) (scope : Scope) :
    (Comparison.legibility scope).CoversScript node where
  script := h
  texts := fun m hm =>
    { name := fun _ _ => trivial
      word := (hl m hm).1
      pattern := (hl m hm).2.1
      comment := (hl m hm).2.2 }

/-- The form of a legible script is a program of printable forms. -/
theorem toProgram_forms_printable (h : node.IsScript) (hl : node.Legible) {scope : Scope}
    {form : Form} (hf : node.toProgram scope = .ok form) :
    ∃ forms, form = .program forms ∧ ∀ child ∈ forms, child.Printable := by
  have hagree := Comparison.agree_toProgram (coversScript_legibility h hl scope)
  have hrelated : Rule.RelatedPrograms (Comparison.legibility scope) form form :=
    Agree.of_ok (hf ▸ hagree)
  obtain ⟨forms, others, hforms, hform, -⟩ := hrelated
  exact ⟨forms, hform, (forall₂_samePrintable.1 hforms).1⟩

end Node

theorem Form.legible_program {forms : List Form} (h : ∀ form ∈ forms, form.Printable) :
    (Form.program forms).Legible ∧
      ∀ m ∈ (Form.program forms).descendants, m.isProgram = false := by
  refine ⟨forall_subforms_iff.2 ⟨trivial, fun part hp m hm => (h part hp m hm).1⟩, ?_⟩
  intro m hm
  obtain ⟨part, hp, hm⟩ := List.mem_flatMap.1 hm
  exact (h part hp m hm).2

/-- A program of printable forms is printed, the print has a compact layout, and the layout has the
tokens of the program. -/
theorem Form.layout_of_printable {forms : List Form} (h : ∀ form ∈ forms, form.Printable) :
    ∃ raw text placed, (Form.program forms).print = .ok raw ∧
      Layout.compact.apply raw = .ok text ∧ Token.scan text.toList = .ok placed ∧
      placed.map Prod.snd = (Form.program forms).tokens := by
  obtain ⟨hlegible, hinner⟩ := legible_program h
  obtain ⟨raw, hraw⟩ := (succeeds_rawText (.program forms)).2 fun m hm => by simp [hinner m hm]
  obtain ⟨text, placed, hlaid⟩ := layout_of_spells hraw (spells_rawText hlegible hraw)
  exact ⟨String.ofList raw, text, placed, hlaid⟩

/-- A printed form whose print has a compact layout can be laid out in every way. -/
theorem Form.layOut_ne_error {form : Form} {raw text : String} (hp : form.print = .ok raw)
    (ha : Layout.compact.apply raw = .ok text) (layout : Layout) (error : TransformError) :
    form.layOut layout ≠ .error error := by
  cases layout with
  | raw => simp [Form.layOut, hp, Layout.apply, Except.mapError]
  | compact => simp [Form.layOut, hp, ha, Except.mapError]

/-- What a text fails to be transformed for: it is no script, its script has no form, or the form
of its script has no layout. -/
theorem transform_eq_error {scope : Scope} {layout : Layout} {source : String} {reader : Reader}
    {error : TransformError} (h : transform scope layout source reader = .error error) :
    (error = .syntaxError ∨ ∃ fault, error = .fault fault) ∨
      ∃ tree form, parse source reader = .ok tree ∧ tree.toProgram scope = .ok form ∧
        form.layOut layout = .error error := by
  unfold transform toForm at h
  cases hparse : parse source reader with
  | error cause =>
    rw [hparse] at h
    cases h
    unfold parse at hparse
    cases hread : (reader.read source).program with
    | error cause =>
      rw [hread] at hparse
      cases hparse
      exact .inl (.inl rfl)
    | ok tree =>
      rw [hread] at hparse
      cases hparse
  | ok tree =>
    cases hform : tree.toProgram scope with
    | error fault =>
      simp only [hparse, ok_bind, hform, Except.mapError] at h
      cases h
      exact .inl (.inr ⟨fault, rfl⟩)
    | ok form =>
      simp only [hparse, ok_bind, hform, Except.mapError] at h
      exact .inr ⟨tree, form, rfl, hform, h⟩

namespace Node

/-- If a legible script has a form, the form is printed, the print has a compact layout, and the
layout has exactly the tokens of the form. So, whatever reads scripts, a text fails to be
transformed only because it is no script or because its script has no form. -/
theorem toProgram_printable (node : Node) (h : node.IsScript) (hl : node.Legible) (scope : Scope) :
    (∀ form, node.toProgram scope = .ok form → ∃ raw text placed, form.print = .ok raw ∧
      Layout.compact.apply raw = .ok text ∧ Token.scan text.toList = .ok placed ∧
      placed.map Prod.snd = form.tokens) ∧
    ∀ layout source reader error, (∀ tree, parse source reader = .ok tree → tree = node) →
      transform scope layout source reader = .error error →
      error = .syntaxError ∨ ∃ fault, error = .fault fault := by
  have hlaid : ∀ form, node.toProgram scope = .ok form → ∃ raw text placed,
      form.print = .ok raw ∧ Layout.compact.apply raw = .ok text ∧
      Token.scan text.toList = .ok placed ∧ placed.map Prod.snd = form.tokens := by
    intro form hf
    obtain ⟨forms, rfl, hforms⟩ := toProgram_forms_printable h hl hf
    exact layout_of_printable hforms
  refine ⟨hlaid, fun layout source reader error hparse herror => ?_⟩
  rcases transform_eq_error herror with hsource | ⟨tree, form, hsource, hform, hfails⟩
  · exact hsource
  · -- The form of the script has a layout, so that it cannot be what fails.
    obtain rfl := hparse tree hsource
    obtain ⟨raw, text, -, hprint, happly, -⟩ := hlaid form hform
    exact absurd hfails (Form.layOut_ne_error hprint happly layout error)

/-- The tree of `n += { "a-b": /"/g }` under a comment. -/
def noteScript : Node :=
  .program [.expressionStatement (.assignmentExpression "+=" (.identifier "n")
    (.objectExpression [.objectProperty (.stringLiteral "a-b") (.regExpLiteral "\"" "g") false
      false])) ["note"]]

/-- The form of `noteScript`. -/
def noteForm : Form :=
  .program [.comment "note", .call "set!" [.symbol "n", .call "+" [.symbol "n",
    .hostObject [.mapEntry (.keyword "a-b") (.regex "\"" "g")]]]]

theorem toProgram_noteScript :
    (noteScript.IsScript ∧ noteScript.Legible ∧
      noteScript.toProgram NameSet.host.scope = .ok noteForm) ∧
      ∃ raw text placed, noteForm.print = .ok raw ∧ Layout.compact.apply raw = .ok text ∧
        Token.scan text.toList = .ok placed ∧ placed.map Prod.snd = noteForm.tokens := by
  have hscript : noteScript.IsScript := ⟨rfl, by unfold Grammatical; decide⟩
  have hlegible : noteScript.Legible := by decide
  have hform : noteScript.toProgram NameSet.host.scope = .ok noteForm := by rfl
  exact ⟨⟨hscript, hlegible, hform⟩, (toProgram_printable _ hscript hlegible _).1 _ hform⟩

end Node

end ScriptForms
