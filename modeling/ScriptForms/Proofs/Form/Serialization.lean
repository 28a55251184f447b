import ScriptForms.Proofs.Form.Literal
import ScriptForms.Proofs.Form.Subform
import ScriptForms.Proofs.Outcome

/-!
# Printed forms read back

The tokens of a printed form are those of its structure: an atom for each atom, delimiters around
what they hold, a comment for each comment, and nothing for a marker.

* `Form.tokens`: the tokens of a form, from its structure alone.
* `Form.Legible`: the names, numbers, tags, comments and patterns of a form have texts that can be
  read back.
* `Form.print_spells`: what is printed is read back as the tokens of the form, and only a program
  below the root cannot be printed.
-/

namespace ScriptForms.Form

open Token

/-! ### Structure -/

mutual

/-- The tokens of a form. -/
def tokens : Form → List Token
  | .program children => tokensAll children
  | .empty | .leave => []
  | .symbol name => [.atom name.toList]
  | .keyword value => [.atom (':' :: value.toList)]
  | .number raw => [.atom raw.toList]
  | .string value => [.atom (Json.quote value.toList)]
  | .boolean value => [.atom (if value then "true" else "false").toList]
  | .regex pattern flags => [.atom (regexText pattern.toList flags.toList)]
  | .list children => .opening .round :: tokensAll children ++ [.closing .round]
  | .vector children => .opening .square :: tokensAll children ++ [.closing .square]
  | .hashMap children => .opening .curly :: tokensAll children ++ [.closing .curly]
  | .mapEntry key value => key.tokens ++ value.tokens
  | .tagged tag form => .atom tag.toList :: form.tokens
  | .comment text => [.comment (Text.trimEnd ([';', ';', ' '] ++ text.toList))]

/-- The tokens of several forms. -/
def tokensAll : List Form → List Token
  | [] => []
  | form :: forms => form.tokens ++ tokensAll forms

end

theorem tokens_eq_nil_of_isMarker {form : Form} (h : form.isMarker) : form.tokens = [] := by
  cases form with
  | empty | leave => simp [tokens]
  | _ => cases h

/-- The text of the form itself can be read back. -/
def HasLegibleText : Form → Prop
  | .symbol text | .number text | .tagged text _ => IsWord text.toList
  | .keyword value => ∀ c ∈ value.toList, isDelimiter c = false
  | .comment text => '\n' ∉ text.toList
  | .regex pattern _ => ¬endsEscaping pattern.toList
  | _ => True

instance (text : List Char) : Decidable (∀ c ∈ text, isDelimiter c = false) :=
  decidable_of_iff (text.all fun c => !isDelimiter c) (by simp)

instance (text : List Char) : Decidable (IsWord text) := inferInstanceAs (Decidable (_ ∧ _))

instance : (form : Form) → Decidable form.HasLegibleText
  | .symbol text | .number text | .tagged text _ => inferInstanceAs (Decidable (IsWord text.toList))
  | .keyword value => inferInstanceAs (Decidable (∀ c ∈ value.toList, isDelimiter c = false))
  | .comment text => inferInstanceAs (Decidable ('\n' ∉ text.toList))
  | .regex pattern _ => inferInstanceAs (Decidable (¬endsEscaping pattern.toList))
  | .string _ | .boolean _ | .list _ | .vector _ | .hashMap _ | .mapEntry .. | .program _ | .empty
  | .leave => .isTrue trivial

/-- Every text of the form can be read back. -/
def Legible (form : Form) : Prop := ∀ m ∈ form.subforms, m.HasLegibleText

instance (form : Form) : Decidable form.Legible :=
  inferInstanceAs (Decidable (∀ m ∈ form.subforms, m.HasLegibleText))

/-! ### Which forms are printed -/

theorem succeeds_emitAll {forms : List Form} :
    Succeeds (emitAll forms) ↔ ∀ form ∈ forms, Succeeds (emit form) := by
  induction forms with
  | nil => simp [emitAll]
  | cons form forms ih => simp [emitAll, ih]

/-- A form below the root is printed iff it holds no program. -/
theorem succeeds_emit (form : Form) :
    Succeeds (emit form) ↔ ∀ m ∈ form.subforms, ¬m.isProgram := by
  induction form using induction_on_parts with
  | h form ih =>
    rw [forall_subforms_iff, ← forall₂_congr ih]
    cases form with
    | list children | vector children | hashMap children =>
      simp [emit, isProgram, parts, succeeds_emitAll]
    | mapEntry key value => simp [emit, isProgram, parts]
    | tagged tag form =>
      rw [emit, succeeds_bind_iff (p := True) fun text _ => by cases text <;> simp]
      simp [isProgram, parts]
    | _ => simp [emit, isProgram, parts]

/-- A form at the root is printed iff no program stands below the root. -/
theorem succeeds_rawText (form : Form) :
    Succeeds form.rawText ↔ ∀ m ∈ form.descendants, ¬m.isProgram := by
  have hparts : (∀ m ∈ form.descendants, ¬m.isProgram) ↔
      ∀ part ∈ form.parts, Succeeds (emit part) := by
    simp only [descendants, List.forall_mem_flatMap, succeeds_emit]
  rw [hparts]
  by_cases hp : form.isProgram
  · cases form with
    | program children => simp [rawText, parts, succeeds_emitAll]
    | _ => cases hp
  · have hemit : Succeeds form.rawText ↔ Succeeds (emit form) := by
      cases form with
      | program children => exact absurd rfl hp
      | _ => simp [rawText]
    rw [hemit, succeeds_emit, forall_subforms_iff, and_iff_right hp]
    simp only [succeeds_emit]

/-! ### What is printed -/

/-- Nothing that follows the text can join its last word: the text ends a line, or what follows
starts with white space or a closing delimiter. -/
def Closes (text rest : List Char) : Prop := text.getLast? = some '\n' ∨ Breaks rest

theorem Closes.of_append {text more rest : List Char} {c : Char} (hc : c ≠ '\n')
    (h : Closes (text ++ c :: more) rest) : Closes more rest := by
  rcases h with h | h
  · rcases List.eq_nil_or_concat more with rfl | ⟨front, last, rfl⟩
    · simp [hc] at h
    · left
      rw [List.concat_eq_append, ← List.cons_append, ← List.append_assoc, List.getLast?_concat] at h
      rw [List.concat_eq_append, List.getLast?_concat, h]
  · exact .inr h

theorem Closes.breaks {text rest : List Char} (hw : IsWord text) (h : Closes text rest) :
    Breaks rest := by
  rcases h with h | h
  · have hn : isDelimiter '\n' = false := hw.2 '\n' (List.mem_of_getLast? h)
    exact absurd hn (by decide)
  · exact h

/-- The text of the form reads back as its tokens, in front of whatever cannot join its last
word. -/
def ReadsBack (form : Form) : Prop :=
  ∀ {text rest : List Char} {tokens : List Token}, emit form = .ok (some text) →
    Closes text rest → Spells rest tokens → Spells (text ++ rest) (form.tokens ++ tokens)

theorem tokens_eq_nil_of_emit {form : Form} (h : emit form = .ok none) : form.tokens = [] := by
  cases form with
  | empty | leave => rfl
  | list children | vector children | hashMap children =>
    rw [emit] at h
    obtain ⟨texts, -, h⟩ := bind_eq_ok.1 h
    cases h
  | mapEntry key value =>
    rw [emit] at h
    obtain ⟨_, -, h⟩ := bind_eq_ok.1 h
    obtain ⟨_, -, h⟩ := bind_eq_ok.1 h
    cases h
  | tagged tag form =>
    rw [emit] at h
    obtain ⟨text, -, h⟩ := bind_eq_ok.1 h
    cases text <;> cases h
  | _ => cases h

theorem tokensAll_eq_nil_of_emitAll {forms : List Form} (h : emitAll forms = .ok []) :
    tokensAll forms = [] := by
  induction forms with
  | nil => rfl
  | cons form forms ih =>
    rw [emitAll] at h
    obtain ⟨text, htext, h⟩ := bind_eq_ok.1 h
    obtain ⟨later, hlater, h⟩ := bind_eq_ok.1 h
    obtain ⟨hnone, rfl⟩ := List.append_eq_nil_iff.1 (Except.ok.inj h)
    rw [Option.toList_eq_nil_iff] at hnone
    rw [tokensAll, ih hlater, tokens_eq_nil_of_emit (hnone ▸ htext), List.append_nil]

@[simp] theorem spaced_singleton (text : List Char) : spaced [text] = text := by
  simp [spaced, List.intercalate]

theorem spaced_cons (text next : List Char) (texts : List (List Char)) :
    spaced (text :: next :: texts) = text ++ ' ' :: spaced (next :: texts) := by
  simp [spaced, List.intercalate, List.intersperse]

/-- Texts with a space between them read back one after the other. -/
theorem spells_spaced {forms : List Form} (hf : ∀ form ∈ forms, ReadsBack form)
    {texts : List (List Char)} (he : emitAll forms = .ok texts) {rest : List Char}
    {tokens : List Token} (hr : Closes (spaced texts) rest) (h : Spells rest tokens) :
    Spells (spaced texts ++ rest) (tokensAll forms ++ tokens) := by
  induction forms generalizing texts with
  | nil =>
    cases he
    exact h
  | cons form forms ih =>
    rw [List.forall_mem_cons] at hf
    rw [emitAll] at he
    obtain ⟨text, htext, he⟩ := bind_eq_ok.1 he
    obtain ⟨later, hlater, he⟩ := bind_eq_ok.1 he
    cases he
    rw [tokensAll, List.append_assoc]
    cases text with
    | none =>
      rw [tokens_eq_nil_of_emit htext]
      exact ih hf.2 hlater hr
    | some text =>
      cases later with
      | nil =>
        rw [tokensAll_eq_nil_of_emitAll hlater]
        simp only [Option.toList_some, List.append_nil, spaced_singleton] at hr ⊢
        exact hf.1 htext hr h
      | cons next later =>
        simp only [Option.toList_some, List.singleton_append, spaced_cons] at hr ⊢
        have hnext := ih hf.2 hlater (hr.of_append (by decide))
        rw [List.append_assoc, List.cons_append]
        exact hf.1 htext (.inr (breaks_of_isBlank rfl _)) (.blank rfl hnext)

theorem spells_bracketed (b : Bracket) {forms : List Form} (hf : ∀ form ∈ forms, ReadsBack form)
    {texts : List (List Char)} (he : emitAll forms = .ok texts) {rest : List Char}
    {tokens : List Token} (h : Spells rest tokens) :
    Spells (b.opening :: (spaced texts ++ b.closing :: rest))
      (.opening b :: (tokensAll forms ++ .closing b :: tokens)) :=
  .opening b (spells_spaced hf he (.inr (breaks_closing b rest)) (.closing b h))

theorem isWord_keyword {value : List Char} (h : ∀ c ∈ value, isDelimiter c = false) :
    IsWord (':' :: value) :=
  ⟨by simp, List.forall_mem_cons.2 ⟨rfl, h⟩⟩

theorem isWord_boolean (value : Bool) : IsWord (if value then "true" else "false").toList := by
  cases value with
  | true =>
    show IsWord ['t', 'r', 'u', 'e']
    decide
  | false =>
    show IsWord ['f', 'a', 'l', 's', 'e']
    decide

theorem readsBack_list {children : List Form} (h : ∀ child ∈ children, ReadsBack child) :
    ReadsBack (.list children) := by
  intro text rest tokens he _ hrest
  rw [emit] at he
  obtain ⟨texts, htexts, he⟩ := bind_eq_ok.1 he
  cases he
  have hlines : Spells ('\n' :: '\n' :: rest) tokens := .blank rfl (.blank rfl hrest)
  simp only [Form.tokens, List.cons_append, List.append_assoc, List.nil_append]
  exact spells_bracketed .round h htexts hlines

theorem readsBack (form : Form) (hl : form.Legible) : ReadsBack form := by
  induction form using induction_on_parts with
  | h form ih =>
    intro text rest tokens he hr h
    obtain ⟨htext, hparts⟩ := forall_subforms_iff.1 hl
    have ih : ∀ part ∈ form.parts, ReadsBack part := fun part hp => ih part hp (hparts part hp)
    cases form with
    | symbol word | number word =>
      cases he
      exact .word htext (hr.breaks htext) h
    | keyword value =>
      cases he
      have hw := isWord_keyword htext
      exact .word hw (hr.breaks hw) h
    | boolean value =>
      cases he
      exact .word (isWord_boolean value) (hr.breaks (isWord_boolean value)) h
    | string value =>
      cases he
      exact .string (Json.isString_quote value.toList) h
    | regex pattern flags =>
      cases he
      exact .string (isString_regexText htext flags.toList) h
    | list children => exact readsBack_list ih he hr h
    | vector children =>
      rw [emit] at he
      obtain ⟨texts, htexts, he⟩ := bind_eq_ok.1 he
      cases he
      simp only [Form.tokens, List.cons_append, List.append_assoc, List.nil_append]
      exact spells_bracketed .square ih htexts h
    | hashMap children =>
      rw [emit] at he
      obtain ⟨texts, htexts, he⟩ := bind_eq_ok.1 he
      cases he
      simp only [Form.tokens, List.cons_append, List.append_assoc, List.nil_append]
      exact spells_bracketed .curly ih htexts h
    | mapEntry key value =>
      -- An entry prints like the two items of a list without delimiters.
      rw [emit] at he
      obtain ⟨first, hfirst, he⟩ := bind_eq_ok.1 he
      obtain ⟨second, hsecond, he⟩ := bind_eq_ok.1 he
      cases he
      have htexts : emitAll [key, value] = .ok (first.toList ++ second.toList) := by
        simp [emitAll, hfirst, hsecond]
      simpa [Form.tokens, tokensAll, parts] using spells_spaced ih htexts hr h
    | tagged tag form =>
      rw [emit] at he
      obtain ⟨inner, hinner, he⟩ := bind_eq_ok.1 he
      cases inner with
      | none =>
        cases he
        rw [Form.tokens, tokens_eq_nil_of_emit hinner]
        exact .word htext (hr.breaks htext) h
      | some inner =>
        cases he
        have hform := ih form (by simp [parts]) hinner (hr.of_append (by decide)) h
        rw [List.append_assoc]
        exact .word htext (breaks_of_isBlank rfl _) (.blank rfl hform)
    | comment line =>
      cases he
      have hn : '\n' ∉ ';' :: ' ' :: line.toList := by
        simpa [HasLegibleText] using htext
      simpa [Form.tokens] using Spells.comment hn h
    | empty | leave | program children => cases he

/-- The forms of a program, each with its blank line, read back one after the other. -/
theorem spells_paragraphs {forms : List Form} (hf : ∀ form ∈ forms, ReadsBack form)
    {texts : List (List Char)} (he : emitAll forms = .ok texts) :
    Spells (texts.flatMap paragraph) (tokensAll forms) := by
  induction forms generalizing texts with
  | nil =>
    cases he
    exact .nil
  | cons form forms ih =>
    rw [List.forall_mem_cons] at hf
    rw [emitAll] at he
    obtain ⟨text, htext, he⟩ := bind_eq_ok.1 he
    obtain ⟨later, hlater, he⟩ := bind_eq_ok.1 he
    cases he
    have hlater := ih hf.2 hlater
    rw [tokensAll]
    cases text with
    | none =>
      rw [tokens_eq_nil_of_emit htext]
      exact hlater
    | some text =>
      rw [Option.toList_some, List.singleton_append, List.flatMap_cons, paragraph]
      split
      · rename_i hline
        exact hf.1 htext (.inl hline) hlater
      · rw [List.append_assoc]
        exact hf.1 htext (.inr (breaks_of_isBlank rfl _)) (.blank rfl (.blank rfl hlater))

/-- A form that is no program has the same text at the root as below it. -/
theorem ReadsBack.spells_rawText {form : Form} (hb : ReadsBack form) (hp : ¬form.isProgram)
    {text : List Char} (h : form.rawText = .ok text) : Spells text form.tokens := by
  have hemit : ∃ inner, emit form = .ok inner ∧ inner.getD [] = text := by
    cases form with
    | program children => exact absurd rfl hp
    | _ =>
      obtain ⟨inner, hinner, h⟩ := bind_eq_ok.1 h
      exact ⟨inner, hinner, Except.ok.inj h⟩
  obtain ⟨inner, hinner, rfl⟩ := hemit
  cases inner with
  | none =>
    rw [tokens_eq_nil_of_emit hinner]
    exact .nil
  | some inner => simpa using hb hinner (.inr breaks_nil) .nil

theorem spells_rawText {form : Form} (hl : form.Legible) {text : List Char}
    (h : form.rawText = .ok text) : Spells text form.tokens := by
  by_cases hp : form.isProgram
  · cases form with
    | program children =>
      obtain ⟨texts, htexts, h⟩ := bind_eq_ok.1 h
      cases h
      have hparts := (forall_subforms_iff.1 hl).2
      exact spells_paragraphs (fun child hc => readsBack child (hparts child hc)) htexts
    | _ => cases hp
  · exact ReadsBack.spells_rawText (readsBack form hl) hp h

/-- A form whose texts are legible is printed iff no program stands below its root, and what is
printed has exactly the tokens of the form. -/
theorem print_spells (form : Form) (hl : form.Legible) :
    (form.print = .error .nestedProgram ↔ ∃ m ∈ form.descendants, m.isProgram) ∧
      ((¬∃ m ∈ form.descendants, m.isProgram) → ∃ text placed, form.print = .ok text ∧
        Token.scan text.toList = .ok placed ∧ placed.map Prod.snd = form.tokens) := by
  have hsucceeds : Succeeds form.rawText ↔ ¬∃ m ∈ form.descendants, m.isProgram := by
    rw [succeeds_rawText]
    push Not
    rfl
  unfold print
  cases hraw : form.rawText with
  | error fault =>
    have hfails : ∃ m ∈ form.descendants, m.isProgram := by
      by_contra hn
      exact not_succeeds_error fault (hraw ▸ hsucceeds.2 hn)
    exact ⟨iff_of_true rfl hfails, fun hn => absurd hfails hn⟩
  | ok text =>
    have hn := hsucceeds.1 ⟨text, hraw⟩
    obtain ⟨placed, hscan, hplaced⟩ := spells_iff.1 (spells_rawText hl hraw)
    refine ⟨iff_of_false (fun h => by cases h) hn, fun _ => ?_⟩
    refine ⟨String.ofList text, placed, rfl, ?_, hplaced⟩
    rw [String.toList_ofList]
    exact hscan

/-- A form with a string, a pattern, a marker and a comment in which quotes, delimiters and
semicolons stand. -/
def quotedForm : Form :=
  .program [.comment "a \"note\"", .list [.symbol "str", .string "a\"(b;", .empty,
    .tagged "#js" (.vector [.regex "x\"]" "i", .number "1"])]]

theorem print_quotedForm : quotedForm.Legible ∧ ∃ text placed, quotedForm.print = .ok text ∧
    Token.scan text.toList = .ok placed ∧ placed.map Prod.snd = quotedForm.tokens := by
  have hl : quotedForm.Legible := by decide +kernel
  exact ⟨hl, (print_spells quotedForm hl).2 (by decide)⟩

end ScriptForms.Form
