import ScriptForms.Proofs.Outcome
import ScriptForms.Proofs.Source.Chunk
import ScriptForms.Proofs.Text.Parser
import ScriptForms.Transform

/-!
# Templates

A template stores what is read of its texts, which is what they mean unless a line of them is broken
by something else than a line feed. This is so for every tree of a template whose substitutions
stand where they stand in the source, whatever reads it. The usual grammar gives such a tree: it
reads the text of a template up to the next substitution or the closing quote, whatever pieces the
text is made of.

* `Source.IsTail`: the substitutions of a template with the texts behind them.
* `Source.IsTemplate`: a tree of a template.
* `Source.template_eq`: the texts of such a tree.
* `Source.runsTo_chunkText`: a chunk is read up to its end.
* `Source.isTemplate_templateLiteral`: the usual grammar gives such a tree.
* `Source.templateLiteral_quasis`: the texts of a template, and what they mean.
-/

namespace ScriptForms

open Text

namespace Source

variable {pieces : List Piece} {rest : List Char}

/-! ### Reading an escape sequence -/

theorem not_octal {c : Char} (h : c.isDigit = false) : ¬('0' ≤ c ∧ c ≤ '7') := by
  rintro ⟨hlow, hhigh⟩
  have hnine : c ≤ '9' := Char.le_trans hhigh (show '7' ≤ '9' by decide)
  have hdigit : c.isDigit = true := by
    simp only [Char.isDigit, Bool.and_eq_true, decide_eq_true_eq]
    exact ⟨hlow, hnine⟩
  rw [h] at hdigit
  cases hdigit

/-- A plain character behind a backslash is read with it. A line break behind `\?`, and behind a
carriage return, is read together with them. -/
theorem escapeSequence_plain {c : Char} (hx : c ≠ 'x') (hu : c ≠ 'u') (hd : ¬('0' ≤ c ∧ c ≤ '7'))
    (after : List Char) :
    escapeSequence ('\\' :: c :: after) =
      some (if (c = '\r' ∨ c = '?') ∧ (after.head?.any isLineBreak) then 3 else 2) := by
  have hoctal : (decide ('0' ≤ c) && decide (c ≤ '7')) = false := by simpa using hd
  have hplain : c < '0' ∨ '7' < c := by simpa [not_le] using not_and_or.1 hd
  by_cases hc : c = '\r' ∨ c = '?'
  · cases after with
    | nil =>
      simp [escapeSequence, Lexeme.seq, Lexeme.text, Lexeme.char, Lexeme.atMost, Lexeme.runWithin,
        hoctal, hplain, hx, hu, Ne.symm hx, Ne.symm hu, hc]
    | cons d after =>
      have hdrop : List.drop (1 + 1) ('\\' :: c :: d :: after) = d :: after := rfl
      cases hline : isLineBreak d
      all_goals
        simp [escapeSequence, Lexeme.seq, Lexeme.text, Lexeme.char, Lexeme.atMost,
          Lexeme.runWithin, hoctal, hplain, hx, hu, Ne.symm hx, Ne.symm hu, hc, hdrop, hline]
  · simp [escapeSequence, Lexeme.seq, Lexeme.text, Lexeme.char, Lexeme.atMost, Lexeme.runWithin,
      hoctal, hplain, hx, hu, Ne.symm hx, Ne.symm hu, hc]

theorem escapeSequence_zero {after : List Char} (h : ∀ c ∈ after.head?, c.isDigit = false) :
    escapeSequence ('\\' :: '0' :: after) = some 2 := by
  have hnone : (Lexeme.char fun c => decide ('0' ≤ c) && decide (c ≤ '7')) after = none := by
    cases after with
    | nil => rfl
    | cons c after => simpa [Lexeme.char] using not_octal (h c rfl)
  have hrun := Lexeme.runsTo_nil hnone (List.take 2 after) (Nat.zero_le _)
  rw [List.nil_append, List.length_nil] at hrun
  simp [escapeSequence, Lexeme.seq, Lexeme.text, Lexeme.char, Lexeme.atMost, Lexeme.runWithin, hrun]

section Digits

variable {digits : List Char} (h : ∀ c ∈ digits, isHexDigit c) (after : List Char)

include h

theorem escapeSequence_byte (hl : digits.length = 2) :
    escapeSequence ('\\' :: 'x' :: (digits ++ after)) = some 4 := by
  have htimes := Lexeme.times_char h after
  rw [hl] at htimes
  simp [escapeSequence, Lexeme.seq, Lexeme.text, Lexeme.char, Lexeme.atMost, Lexeme.runWithin,
    htimes]

theorem escapeSequence_unit (hl : digits.length = 4) :
    escapeSequence ('\\' :: 'u' :: (digits ++ after)) = some 6 := by
  have htimes := Lexeme.times_char h after
  rw [hl] at htimes
  have hbrace : ¬['\x7b'] <+: digits ++ after := by
    obtain ⟨first, digits, rfl⟩ := List.exists_cons_of_length_pos (l := digits) (by omega)
    rintro ⟨more, heq⟩
    obtain ⟨rfl, -⟩ := List.cons.inj heq
    exact absurd (h '\x7b' (by simp)) (by decide)
  simp [escapeSequence, Lexeme.seq, Lexeme.text, Lexeme.char, Lexeme.atMost, Lexeme.runWithin,
    htimes, hbrace]

theorem escapeSequence_braced (hne : digits ≠ []) :
    escapeSequence ('\\' :: 'u' :: '\x7b' :: (digits ++ '\x7d' :: after)) =
      some (digits.length + 4) := by
  have htimes :
      (Lexeme.char isHexDigit).times 4 ('\x7b' :: (digits ++ '\x7d' :: after)) = none := rfl
  have hmany :
      (Lexeme.char isHexDigit).many1 (digits ++ '\x7d' :: after) = some digits.length :=
    Lexeme.many1_char hne h rfl
  have hdrop :
      List.drop (1 + (2 + digits.length)) ('\\' :: 'u' :: '\x7b' :: (digits ++ '\x7d' :: after)) =
        '\x7d' :: after := by
    rw [show 1 + (2 + digits.length) = digits.length + 3 by omega]
    simp
  have hlength : 1 + (2 + digits.length + 1) = digits.length + 4 := by omega
  simp [escapeSequence, Lexeme.seq, Lexeme.text, Lexeme.char, Lexeme.atMost, Lexeme.runWithin,
    htimes, hmany, hdrop, hlength]

end Digits

/-! ### Reading up to the end of a chunk -/

/-- One step of reading the text of a template. -/
def templateItem : Lexeme := .longest [templateChar, escapeSequence]

theorem templateItem_char {c : Char} {after : List Char} (hq : c ≠ '`') (hb : c ≠ '\\')
    (hd : c = '$' → after.head? ≠ some '\x7b') : templateItem (c :: after) = some 1 := by
  have hchar : templateChar (c :: after) = some 1 := by
    rw [templateChar]
    · simp [hq, hb]
    · rintro more rfl rfl
      exact hd rfl rfl
  have hescape : escapeSequence (c :: after) = none := by
    simp [escapeSequence, Lexeme.seq, Lexeme.text, Ne.symm hb]
  simp [templateItem, hchar, hescape]

theorem templateItem_lineEnd {c : Char} (h : isLineEnd c) (after : List Char) :
    templateItem (c :: after) = some 1 := by
  have hne : ∀ d, isLineEnd d = false → c ≠ d := by
    rintro d hd rfl
    rw [hd] at h
    cases h
  exact templateItem_char (hne _ (by decide)) (hne _ (by decide)) fun hc =>
    absurd hc (hne _ (by decide))

theorem templateItem_backslash (after : List Char) :
    templateItem ('\\' :: after) = escapeSequence ('\\' :: after) := by
  have hchar : templateChar ('\\' :: after) = none := rfl
  simp [templateItem, hchar]

theorem IsChunk.templateItem_eq_none (h : IsChunk pieces rest) : templateItem rest = none := by
  induction pieces with
  | nil =>
    rcases h with h | ⟨more, rfl⟩
    · obtain ⟨more, rfl⟩ := List.head?_eq_some_iff.1 h
      rfl
    · rfl
  | cons _ _ ih => exact ih h.2

/-- A text is read in one step, perhaps together with a line break behind it. -/
def ReadsOver (part after : List Char) : Prop :=
  templateItem (part ++ after) = some part.length ∨
    after.head?.any isLineBreak ∧ templateItem (part ++ after) = some (part.length + 1)

theorem readsOver_plain {c : Char} (hx : c ≠ 'x') (hu : c ≠ 'u') (hd : c.isDigit = false)
    (after : List Char) : ReadsOver ['\\', c] after := by
  have hplain := escapeSequence_plain hx hu (not_octal hd) after
  rw [ReadsOver, List.cons_append, List.singleton_append, templateItem_backslash, hplain]
  split
  · rename_i hc
    exact .inr ⟨hc.2, rfl⟩
  · exact .inl rfl

theorem Escape.readsOver {text after : List Char} {code : Nat} (h : Escape text code)
    (hzero : text = ['\\', '0'] → ∀ c ∈ after.head?, c.isDigit = false) :
    ReadsOver text after := by
  cases h with
  | @letter l c hl =>
    by_cases hl0 : l = '0'
    · subst hl0
      exact .inl ((templateItem_backslash _).trans (escapeSequence_zero (hzero rfl)))
    · have htable : ∀ letter ∈ controlLetters, letter.1 ≠ '0' →
          letter.1 ≠ 'x' ∧ letter.1 ≠ 'u' ∧ letter.1.isDigit = false := by
        decide
      obtain ⟨hx, hu, hd⟩ := htable (l, c) hl hl0
      exact readsOver_plain hx hu hd after
  | @itself c hc =>
    simp only [standsForItself, Bool.not_or, Bool.and_eq_true, Bool.not_eq_true'] at hc
    have hne : ∀ d, "ntrbfvxu".toList.contains d → c ≠ d := by
      rintro d hd rfl
      rw [hc.1.1] at hd
      cases hd
    exact readsOver_plain (hne _ (by decide)) (hne _ (by decide)) hc.1.2 after
  | byte hl hd =>
    refine .inl ?_
    rw [List.cons_append, List.cons_append, templateItem_backslash,
      escapeSequence_byte hd.isHexDigit after hl]
    simp [hl]
  | unit hl hd =>
    refine .inl ?_
    rw [List.cons_append, List.cons_append, templateItem_backslash,
      escapeSequence_unit hd.isHexDigit after hl]
    simp [hl]
  | braced hne hd =>
    refine .inl ?_
    simp only [List.cons_append, List.append_assoc, List.nil_append]
    rw [templateItem_backslash, escapeSequence_braced hd.isHexDigit after hne]
    simp

theorem readsOver_continuation {text : List Char} (h : text ∈ lineBreaks) (after : List Char) :
    ReadsOver ('\\' :: text) after := by
  simp only [lineBreaks, List.mem_cons, List.not_mem_nil, or_false] at h
  rcases h with rfl | rfl | rfl | rfl | rfl
  case inr.inr.inl =>
    exact .inl ((templateItem_backslash _).trans (escapeSequence_plain (by decide) (by decide)
      (by decide) ('\n' :: after)))
  all_goals exact readsOver_plain (by decide) (by decide) (by decide) after

/-- Where a step reads a line break as well, the next one has only the rest to read. -/
theorem runsTo_append_of_readsOver {part text : List Char} (hr : templateItem rest = none)
    (h : templateItem.RunsTo text rest) (hne : part ≠ []) (ho : ReadsOver part (text ++ rest)) :
    templateItem.RunsTo (part ++ text) rest := by
  rcases ho with hpart | ⟨hbreak, hpart⟩
  · exact h.append hne hpart
  · have hend : ∀ c, isLineBreak c → isLineEnd c := fun c hc => by simp [isLineEnd, hc]
    cases text with
    | nil =>
      cases rest with
      | nil => cases hbreak
      | cons c rest =>
        rw [templateItem_lineEnd (hend c hbreak)] at hr
        cases hr
    | cons c text =>
      have htail := h.tail (templateItem_lineEnd (hend c hbreak) _)
      have happend := htail.append (show part ++ [c] ≠ [] by simp) (by simpa using hpart)
      rwa [List.append_assoc, List.singleton_append] at happend

/-- The text of a chunk is read up to its end. -/
theorem runsTo_chunkText (h : IsChunk pieces rest) :
    templateItem.RunsTo (chunkText pieces) rest := by
  induction pieces with
  | nil => exact Lexeme.runsTo_nil h.templateItem_eq_none
  | cons piece pieces ih =>
    obtain ⟨hlegal, hpieces⟩ := h
    have hrest := ih hpieces
    have hend := hpieces.templateItem_eq_none
    have hline : ∀ {c : Char} {text : List Char}, isLineEnd c →
        templateItem.RunsTo text rest → templateItem.RunsTo (c :: text) rest :=
      fun {c} _ hc htext =>
        htext.append (List.cons_ne_nil c []) (templateItem_lineEnd hc _)
    cases piece with
    | char c =>
      exact hrest.append (List.cons_ne_nil c [])
        (templateItem_char hlegal.1 hlegal.2.1 hlegal.2.2.2.2)
    | lineBreak b =>
      cases b with
      | lf => exact hline (by decide) hrest
      | cr => exact hline (by decide) hrest
      | crlf => exact hline (by decide) (hline (by decide) hrest)
    | escape text code =>
      obtain ⟨body, rfl⟩ := hlegal.1.exists_cons
      exact runsTo_append_of_readsOver hend hrest (List.cons_ne_nil _ _)
        (hlegal.1.readsOver hlegal.2)
    | continuation text =>
      exact runsTo_append_of_readsOver hend hrest (List.cons_ne_nil _ _)
        (readsOver_continuation hlegal.1 _)

theorem templateChunk_run (h : IsChunk pieces rest) (offset : Nat) (kept : List (Nat × Nat))
    (isBarred : Bool) : templateChunk.run ⟨offset, chunkText pieces ++ rest, kept, isBarred⟩ =
      some ((), ⟨offset + (chunkText pieces).length, rest, kept, isBarred⟩) :=
  discard_exactly_run (runsTo_chunkText h).many offset kept isBarred

/-! ### Trees of templates -/

/-- A substitution with the pieces behind it: the characters of the substitution, its tree, the
expression in it, and the pieces. -/
structure Part where
  code : List Char
  tree : Tree
  node : Node
  pieces : List Piece

/-- The characters of a substitution and of the pieces behind it. -/
def Part.text (part : Part) : List Char := part.code ++ chunkText part.pieces

/-- The substitutions of a template, from the given place up to the quote in front of `after`. The
tree of each one stands where its characters stand, and has its expression. -/
def IsTail (source : List Char) (lower : Lowering.Lower) :
    (offset : Nat) → List Part → (after : List Char) → Prop
  | _, [], _ => True
  | offset, part :: parts, after =>
    ['$', '\x7b'] <+: part.code ∧
    part.tree.start = offset ∧ part.tree.stop = offset + part.code.length ∧
    Lowering.lowerFirst source lower "expression" part.tree = .ok part.node ∧
    IsChunk part.pieces (parts.flatMap Part.text ++ '`' :: after) ∧
    IsTail source lower (offset + part.text.length) parts after

/-- A tree of a template: pieces, and substitutions with pieces behind them, between quotes. -/
structure IsTemplate (source : List Char) (lower : Lowering.Lower) (tree : Tree)
    (pieces : List Piece) (parts : List Part) (after : List Char) : Prop where
  text : source.drop tree.start =
    '`' :: (chunkText pieces ++ (parts.flatMap Part.text ++ '`' :: after))
  stop : tree.stop =
    tree.start + 1 + (chunkText pieces).length + (parts.flatMap Part.text).length + 1
  substitutions : tree.named.filter (·.kind == "template_substitution") = parts.map (·.tree)
  first : IsChunk pieces (parts.flatMap Part.text ++ '`' :: after)
  tail : IsTail source lower (tree.start + 1 + (chunkText pieces).length) parts after

section Template

variable {source : List Char} {lower : Lowering.Lower} {tree : Tree} {offset : Nat}
  {parts : List Part} {after : List Char}

theorem quasi_eq (h : IsChunk pieces rest) (hs : source.drop offset = chunkText pieces ++ rest) :
    Lowering.quasi source offset (offset + (chunkText pieces).length) = quasi pieces := by
  rw [Lowering.quasi, hs, Nat.add_sub_cancel_left, List.take_left, unescape_chunkText h, quasi]

/-- The texts of a template and the expressions between them. -/
theorem templateParts_eq (hf : IsChunk pieces (parts.flatMap Part.text ++ '`' :: after))
    (hs : source.drop offset = chunkText pieces ++ (parts.flatMap Part.text ++ '`' :: after))
    (hp : IsTail source lower (offset + (chunkText pieces).length) parts after) :
    Lowering.templateParts source lower
        (offset + (chunkText pieces).length + (parts.flatMap Part.text).length) offset
        (parts.map (·.tree)) =
      .ok (quasi pieces :: parts.map (quasi ·.pieces), parts.map (·.node)) := by
  induction parts generalizing offset pieces with
  | nil =>
    have hquasi := quasi_eq hf hs
    simp [Lowering.templateParts, hquasi]
    rfl
  | cons part parts ih =>
    obtain ⟨-, hstart, hstop, hnode, hchunk, htail⟩ := hp
    have hquasi := quasi_eq hf hs
    have hdrop : source.drop part.tree.stop =
        chunkText part.pieces ++ (parts.flatMap Part.text ++ '`' :: after) := by
      rw [hstop, Nat.add_assoc, ← List.drop_drop, hs, List.flatMap_cons, Part.text,
        List.append_assoc, List.append_assoc, ← List.append_assoc]
      exact List.drop_left' (List.length_append ..)
    have htext : (part.text).length = part.code.length + (chunkText part.pieces).length :=
      List.length_append ..
    have hend : offset + (chunkText pieces).length + ((part :: parts).flatMap Part.text).length =
        part.tree.stop + (chunkText part.pieces).length + (parts.flatMap Part.text).length := by
      rw [List.flatMap_cons, List.length_append, hstop]
      omega
    have htail :
        IsTail source lower (part.tree.stop + (chunkText part.pieces).length) parts after := by
      rwa [hstop, Nat.add_assoc, ← htext]
    rw [List.map_cons, Lowering.templateParts, hnode, hend, ih hchunk hdrop htail, hstart, hquasi]
    rfl

/-- The template of such a tree. -/
theorem template_eq (h : IsTemplate source lower tree pieces parts after) :
    Lowering.template source lower tree =
      .ok (.templateLiteral (quasi pieces :: parts.map (quasi ·.pieces)) (parts.map (·.node))) := by
  have hdrop : source.drop (tree.start + 1) =
      chunkText pieces ++ (parts.flatMap Part.text ++ '`' :: after) := by
    rw [← List.drop_drop, h.text]
    rfl
  rw [Lowering.template, h.substitutions, h.stop, Nat.add_sub_cancel,
    templateParts_eq h.first hdrop h.tail]
  rfl

theorem IsTail.exists_isChunk (h : IsTail source lower offset parts after) {part : Part}
    (hm : part ∈ parts) : ∃ rest, IsChunk part.pieces rest := by
  induction parts generalizing offset with
  | nil => cases hm
  | cons first parts ih =>
    obtain ⟨-, -, -, -, hchunk, htail⟩ := h
    rcases List.mem_cons.1 hm with rfl | hm
    · exact ⟨_, hchunk⟩
    · exact ih htail hm

/-- Every substitution has characters of its own. -/
theorem IsTail.length_le (h : IsTail source lower offset parts after) :
    parts.length ≤ (parts.flatMap Part.text).length := by
  induction parts generalizing offset with
  | nil => exact le_rfl
  | cons part parts ih =>
    obtain ⟨hcode, -, -, -, -, htail⟩ := h
    have hcode := hcode.length_le
    have hrest := ih htail
    simp only [List.length_cons, List.length_nil] at hcode
    rw [List.flatMap_cons, List.length_append, Part.text, List.length_append, List.length_cons]
    omega

end Template

/-! ### Reading templates -/

/-- The usual grammar reads the tree of each substitution. From the first to the last it may keep
something in them. -/
def ReadBy (g : Grammar) : (kept : List (Nat × Nat)) → (offset : Nat) → List Part →
    (after : List Char) → (last : List (Nat × Nat)) → Prop
  | kept, _, [], _, last => last = kept
  | kept, offset, part :: parts, after, last =>
    let rest := chunkText part.pieces ++ (parts.flatMap Part.text ++ '`' :: after)
    ∃ next, (substitution g).run ⟨offset, part.code ++ rest, kept, false⟩ =
        some (part.tree, ⟨offset + part.code.length, rest, next, false⟩) ∧
      ReadBy g next (offset + part.text.length) parts after last

section Template

variable {g : Grammar} {source : List Char} {lower : Lowering.Lower} {tree : Tree} {offset : Nat}
  {parts : List Part} {after : List Char} {kept last : List (Nat × Nat)}

theorem ReadBy.runsThrough (hg : ReadBy g kept offset parts after last)
    (hp : IsTail source lower offset parts after) :
    (substitution g <* templateChunk).RunsThrough
      ⟨offset, parts.flatMap Part.text ++ '`' :: after, kept, false⟩ (parts.map (·.tree))
      ⟨offset + (parts.flatMap Part.text).length, '`' :: after, last, false⟩ := by
  induction parts generalizing kept offset with
  | nil =>
    obtain rfl := hg
    exact ⟨rfl, rfl⟩
  | cons part parts ih =>
    obtain ⟨next, hcode, hrest⟩ := hg
    obtain ⟨-, -, -, -, hchunk, htail⟩ := hp
    have hpart : (substitution g <* templateChunk).run
        ⟨offset, (part :: parts).flatMap Part.text ++ '`' :: after, kept, false⟩ =
          some (part.tree,
            ⟨offset + part.text.length, parts.flatMap Part.text ++ '`' :: after, next, false⟩) := by
      rw [seqLeft_eq_bind, List.flatMap_cons, Part.text, List.append_assoc, List.append_assoc,
        StateT.run_bind, hcode, Option.bind_eq_bind, Option.bind_some, StateT.run_bind,
        templateChunk_run hchunk, List.length_append, ← Nat.add_assoc]
      rfl
    refine ⟨_, hpart, ?_⟩
    rw [List.flatMap_cons, List.length_append, ← Nat.add_assoc]
    exact ih hrest htail

/-- Nothing stands in front of a token. -/
structure IsToken (text : List Char) : Prop where
  trivia : (Lexeme.longest [Lexeme.char isSpace, comment]) text = none
  markup : markup text = none

theorem skip_run (h : IsToken rest) (offset : Nat) (kept : List (Nat × Nat)) (isBarred : Bool) :
    skip.run ⟨offset, rest, kept, isBarred⟩ = some ((), ⟨offset, rest, kept, isBarred⟩) := by
  have htrivia : (discard (exactly trivia) : Parser Unit).run ⟨offset, rest, kept, isBarred⟩ =
      some ((), ⟨offset, rest, kept, isBarred⟩) :=
    discard_exactly_run (Lexeme.runsTo_nil h.trivia).many offset kept isBarred
  have hmarkup : (Parser.many keepMarkup).run ⟨offset, rest, kept, isBarred⟩ =
      some ([], ⟨offset, rest, kept, isBarred⟩) := by
    have hnone : keepMarkup.run ⟨offset, rest, kept, isBarred⟩ = none := by
      rw [keepMarkup, StateT.run_bind]
      exact congrArg (Option.bind · _) (discard_exactly_eq_none h.markup)
    have hend : keepMarkup.RunsThrough ⟨offset, rest, kept, isBarred⟩ []
        ⟨offset, rest, kept, isBarred⟩ := ⟨hnone, rfl⟩
    exact hend.manyWithin (Nat.zero_le _)
  have hdiscard : (discard (Parser.many keepMarkup) : Parser Unit).run
      ⟨offset, rest, kept, isBarred⟩ = some ((), ⟨offset, rest, kept, isBarred⟩) := by
    change ((fun _ => ()) <$> Parser.many keepMarkup).run _ = _
    rw [StateT.run_map, hmarkup]
    rfl
  rw [skip, StateT.run_bind, htrivia]
  cases isBarred with
  | false => exact hdiscard
  | true => rfl

theorem place_run (h : IsToken rest) (offset : Nat) (kept : List (Nat × Nat)) (isBarred : Bool) :
    place.run ⟨offset, rest, kept, isBarred⟩ =
      some (offset, ⟨offset, rest, kept, isBarred⟩) := by
  rw [place, start, StateT.run_bind, StateT.run_bind, skip_run h]
  rfl

theorem nodeFrom_run (start : Nat) (kind : String) (children : List Tree) (cursor : Cursor) :
    (nodeFrom start kind children).run cursor =
      some (⟨kind, true, false, none, start, cursor.offset, children⟩, cursor) :=
  rfl

theorem char_run {c : Char} (h : IsToken (c :: rest)) (offset : Nat) (kept : List (Nat × Nat))
    (isBarred : Bool) : (char c).run ⟨offset, c :: rest, kept, isBarred⟩ =
      some ((), ⟨offset + 1, rest, kept, false⟩) := by
  have hfront : Lexeme.char (· == c) ([c] ++ rest) = some [c].length := by simp [Lexeme.char]
  have hchar : (exactly (Lexeme.char (· == c))).run ⟨offset, c :: rest, kept, isBarred⟩ =
      some ([c], ⟨offset + 1, rest, kept, isBarred⟩) :=
    exactly_run hfront offset kept isBarred
  change ((fun _ => ()) <$> (skip *> exactly _ <* Parser.unbar)).run _ = _
  rw [StateT.run_map, seqLeft_eq_bind, seqRight_eq_bind, StateT.run_bind, StateT.run_bind,
    skip_run h]
  simp [hchar, Parser.unbar]

theorem templateLiteral_run (h : IsTemplate source lower tree pieces parts after)
    (hg : ReadBy g kept (tree.start + 1 + (chunkText pieces).length) parts after last)
    (isBarred : Bool) :
    (templateLiteral g).run ⟨tree.start, source.drop tree.start, kept, isBarred⟩ =
      some (⟨"template_string", true, false, none, tree.start, tree.stop, parts.map (·.tree)⟩,
        ⟨tree.stop, after, last, false⟩) := by
  rw [h.text, h.stop]
  have htoken : ∀ more, IsToken ('`' :: more) := fun _ => ⟨rfl, rfl⟩
  have hplace : ∀ more, place.run ⟨tree.start, '`' :: more, kept, isBarred⟩ =
      some (tree.start, ⟨tree.start, '`' :: more, kept, isBarred⟩) :=
    fun more => place_run (htoken more) tree.start kept isBarred
  have hopen : ∀ more, (char '`').run ⟨tree.start, '`' :: more, kept, isBarred⟩ =
      some ((), ⟨tree.start + 1, more, kept, false⟩) :=
    fun more => char_run (htoken more) tree.start kept isBarred
  have hfirst := templateChunk_run h.first (tree.start + 1) kept false
  have hlength : (parts.map (·.tree)).length ≤
      (parts.flatMap Part.text ++ '`' :: after).length := by
    rw [List.length_map, List.length_append]
    exact h.tail.length_le.trans (Nat.le_add_right _ _)
  have hparts : (Parser.many (substitution g <* templateChunk)).run _ = _ :=
    (hg.runsThrough h.tail).manyWithin hlength
  have hquote : Lexeme.text "`" (['`'] ++ after) = some ['`'].length := rfl
  have hclose := discard_exactly_run hquote
    (tree.start + 1 + (chunkText pieces).length + (parts.flatMap Part.text).length) last false
  rw [List.singleton_append] at hclose
  simp only [templateLiteral, construct, StateT.run_bind, hplace, hopen, hfirst, hparts, hclose,
    nodeFrom_run, Option.bind_eq_bind, Option.bind_some, StateT.run_pure]
  rfl

/-- The usual grammar gives a tree of the template that stands in a source. -/
theorem isTemplate_templateLiteral (h : IsTemplate source lower tree pieces parts after)
    (hg : ReadBy g kept (tree.start + 1 + (chunkText pieces).length) parts after last)
    (isBarred : Bool) :
    ∃ read, (templateLiteral g).run ⟨tree.start, source.drop tree.start, kept, isBarred⟩ =
        some (read, ⟨tree.stop, after, last, false⟩) ∧
      IsTemplate source lower read pieces parts after := by
  refine ⟨_, templateLiteral_run h hg isBarred, h.text, h.stop, ?_, h.first, h.tail⟩
  have hkind : ∀ t ∈ parts.map (·.tree), t.isNamed ∧ t.kind = "template_substitution" := by
    intro t ht
    rw [← h.substitutions, List.mem_filter, Tree.named, List.mem_filter] at ht
    simp only [Bool.and_eq_true, beq_iff_eq] at ht
    exact ⟨ht.1.2.1, ht.2⟩
  have hnamed : (parts.map (·.tree)).filter (fun t => t.isNamed && t.kind != "comment") =
      parts.map (·.tree) :=
    List.filter_eq_self.2 fun t ht => by simp [hkind t ht]
  change ((parts.map (·.tree)).filter _).filter _ = _
  rw [hnamed]
  exact List.filter_eq_self.2 fun t ht => by simp [hkind t ht]

/-- A template stores what is read of its texts, whatever reads the tree of the template; the usual
grammar gives such a tree. What is stored is what a text means iff every line of it is broken by a
line feed and no half of a surrogate pair is left when the pairs are joined. Saved with other line
breaks, a text is read as with line feeds only if none of its lines is broken. -/
theorem templateLiteral_quasis (h : IsTemplate source lower tree pieces parts after) :
    Lowering.template source lower tree =
      .ok (.templateLiteral (quasi pieces :: parts.map (quasi ·.pieces)) (parts.map (·.node))) ∧
    (∀ g kept last isBarred,
      ReadBy g kept (tree.start + 1 + (chunkText pieces).length) parts after last →
      ∃ read, (templateLiteral g).run ⟨tree.start, source.drop tree.start, kept, isBarred⟩ =
          some (read, ⟨tree.stop, after, last, false⟩) ∧
        Lowering.template source lower read = Lowering.template source lower tree) ∧
    ∀ chunk ∈ pieces :: parts.map (·.pieces), ∃ rest, IsChunk chunk rest ∧
      (utf16 (quasi chunk) = chunkValue chunk ↔ ∀ piece ∈ joined chunk, piece.IsKept) ∧
      ∀ b, IsChunk (chunk.map (Piece.saved b)) rest ∧
        (quasi (chunk.map (Piece.saved b)) = quasi (chunk.map (Piece.saved .lf)) ↔
          b = .lf ∨ ∀ c, .lineBreak c ∉ chunk) := by
  refine ⟨template_eq h, fun g kept last isBarred hg => ?_, fun chunk hm => ?_⟩
  · obtain ⟨read, hrun, hread⟩ := isTemplate_templateLiteral h hg isBarred
    exact ⟨read, hrun, (template_eq hread).trans (template_eq h).symm⟩
  have hchunk : ∃ rest, IsChunk chunk rest := by
    rcases List.mem_cons.1 hm with rfl | hm
    · exact ⟨_, h.first⟩
    · obtain ⟨part, hpart, rfl⟩ := List.mem_map.1 hm
      exact h.tail.exists_isChunk hpart
  obtain ⟨rest, hrest⟩ := hchunk
  exact ⟨rest, hrest, utf16_quasi_eq_iff hrest,
    fun b => ⟨isChunk_saved hrest b, quasi_saved_eq_iff b chunk⟩⟩

end Template

/-- A character, a line break, and a character as a code. -/
def brokenLine : List Piece := [.char 'a', .lineBreak .crlf, .escape "\\x41".toList 0x41]

/-- A substitution with a surrogate pair and a continued line behind it. -/
def continuedPart : Part where
  code := "$\x7bx\x7d".toList
  tree := {
    kind := "template_substitution", start := 8, stop := 12
    children := [{ kind := "identifier", start := 10, stop := 11 }] }
  node := .identifier "x"
  pieces := [.escape "\\uD83D".toList 0xd83d, .escape "\\uDE00".toList 0xde00,
    .continuation ['\r']]

/-- The template of `brokenLine` and `continuedPart`. -/
def brokenSource : List Char := "`a\r\n\\x41$\x7bx\x7d\\uD83D\\uDE00\\\r`".toList

/-- The tree of `brokenSource`. -/
def brokenTree : Tree where
  kind := "template_string"
  start := 0
  stop := 27
  children := [continuedPart.tree]

/-- The first text of the template is not read as it is meant, the second one is. -/
theorem templateLiteral_brokenLine :
    IsTemplate brokenSource (Lowering.lower brokenSource) brokenTree brokenLine [continuedPart] [] ∧
      Lowering.template brokenSource (Lowering.lower brokenSource) brokenTree =
        .ok (.templateLiteral ["a\r\nA", "😀"] [.identifier "x"]) ∧
      (∃ read, (templateLiteral (grammar 3)).run { offset := 0, rest := brokenSource } =
          some (read, { offset := 27, rest := [] }) ∧
        Lowering.template brokenSource (Lowering.lower brokenSource) read =
          .ok (.templateLiteral ["a\r\nA", "😀"] [.identifier "x"])) ∧
      utf16 "a\r\nA" ≠ chunkValue brokenLine ∧
      utf16 "😀" = chunkValue continuedPart.pieces ∧
      quasi (brokenLine.map (Piece.saved .cr)) ≠ quasi (brokenLine.map (Piece.saved .lf)) := by
  have hbyte : WritesHex ['4', '1'] 0x41 :=
    writesHex_two (w := 4) (x := 1) (by decide) (by decide)
  have hhigh : WritesHex ['D', '8', '3', 'D'] 0xd83d :=
    writesHex_four (w := 13) (x := 8) (y := 3) (z := 13) (by decide) (by decide) (by decide)
      (by decide)
  have hlow : WritesHex ['D', 'E', '0', '0'] 0xde00 :=
    writesHex_four (w := 13) (x := 14) (y := 0) (z := 0) (by decide) (by decide) (by decide)
      (by decide)
  have hfirst : IsChunk brokenLine ([continuedPart].flatMap Part.text ++ ['`']) :=
    ⟨⟨by decide, by decide, by decide, by decide, nofun⟩, nofun, ⟨.byte rfl hbyte, nofun⟩,
      .inr ⟨_, rfl⟩⟩
  have hsecond : IsChunk continuedPart.pieces ['`'] :=
    ⟨⟨.unit rfl hhigh, nofun⟩, ⟨.unit rfl hlow, nofun⟩, ⟨by decide, by decide⟩, .inl rfl⟩
  have htail : IsTail brokenSource (Lowering.lower brokenSource)
      (brokenTree.start + 1 + (chunkText brokenLine).length) [continuedPart] [] :=
    ⟨⟨_, rfl⟩, rfl, rfl, rfl, hsecond, trivial⟩
  have htemplate : IsTemplate brokenSource (Lowering.lower brokenSource) brokenTree brokenLine
      [continuedPart] [] :=
    ⟨rfl, rfl, rfl, hfirst, htail⟩
  have hread : ReadBy (grammar 3) [] (brokenTree.start + 1 + (chunkText brokenLine).length)
      [continuedPart] [] [] :=
    ⟨[], by rfl, rfl⟩
  obtain ⟨htree, hgrammar, hquasis⟩ := templateLiteral_quasis htemplate
  obtain ⟨read, hrun, hsame⟩ := hgrammar (grammar 3) [] [] false hread
  obtain ⟨_, -, hbroken, hsaved⟩ := hquasis brokenLine (by decide)
  obtain ⟨_, -, hcontinued, -⟩ := hquasis continuedPart.pieces (by decide)
  refine ⟨htemplate, htree, ⟨read, hrun, hsame.trans htree⟩, fun h => ?_,
    hcontinued.2 (by decide), fun h => ?_⟩
  · have hkept : (Piece.lineBreak .crlf).IsKept := hbroken.1 h _ (by decide)
    cases hkept
  · rcases (hsaved .cr).2.1 h with hb | hnone
    · cases hb
    · exact hnone .crlf (by decide)

/-- A line that is broken by a carriage return and a line feed: only the line feed is meant, and
both are read. -/
theorem transform_crlf_kept :
    IsChunk [.char 'a', .lineBreak .crlf, .char 'b'] ['`'] ∧
      chunkValue [.char 'a', .lineBreak .crlf, .char 'b'] = utf16 "a\nb" ∧
      utf16 "a\r\nb" ≠ utf16 "a\nb" ∧
      Lowering.quasi "`a\r\nb`".toList 1 5 = "a\r\nb" ∧
      (transform (fun _ => false) .compact "`a\r\nb`").toOption = some "(str \"a\\r\\nb\")\n" ∧
      (transform (fun _ => false) .compact "`a\nb`").toOption = some "(str \"a\\nb\")\n" := by
  refine ⟨?_, ?_, ?_, ?_, ?_, ?_⟩
  · exact ⟨⟨by decide, by decide, by decide, by decide, nofun⟩, nofun,
      ⟨by decide, by decide, by decide, by decide, nofun⟩, .inl rfl⟩
  · rfl
  · decide
  · rfl
  · decide +kernel
  · decide +kernel

end Source

end ScriptForms
