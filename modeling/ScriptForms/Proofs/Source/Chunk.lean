import ScriptForms.Proofs.Source.Escape

/-!
# Texts of templates

The text of a template is made of pieces: characters, line breaks, escape sequences and continued
lines. The text means the code units that its pieces mean, where a line break means a line feed,
however it is written. What is read keeps every line break as it is written, and has no character
for half of a surrogate pair.

* `Source.Piece`: a piece of the text, with its text and the code units that it means.
* `Source.IsChunk`: the pieces between two substitutions.
* `Source.joined`: the pieces with every surrogate pair as one escape sequence.
* `Source.quasi`, `Source.unescape_chunkText`: what is read of pieces.
* `Source.utf16_quasi_eq_iff`: when this is what they mean.
* `Source.Piece.saved`, `Source.quasi_saved_eq_iff`: the same text with other line breaks.
-/

namespace ScriptForms

open Text

namespace Text

/-- The code units of a string. -/
def utf16 (s : String) : List Nat := s.toList.flatMap fun c => codeUnits c.toNat

end Text

namespace Source

/-! ### Pieces -/

/-- The ways to break a line. -/
inductive LineBreak
  | lf
  | cr
  | crlf
  deriving DecidableEq

/-- The characters of a line break. -/
def LineBreak.text : LineBreak → List Char
  | .lf => ['\n']
  | .cr => ['\r']
  | .crlf => ['\r', '\n']

/-- A piece of the text of a template. -/
inductive Piece
  /-- A character for itself. -/
  | char (c : Char)
  /-- A line break. -/
  | lineBreak (b : LineBreak)
  /-- An escape sequence for a code. -/
  | escape (text : List Char) (code : Nat)
  /-- A continued line: a backslash in front of the characters that break the line. -/
  | continuation (text : List Char)
  deriving DecidableEq

namespace Piece

/-- The characters of a piece. -/
def text : Piece → List Char
  | .char c => [c]
  | .lineBreak b => b.text
  | .escape text _ => text
  | .continuation text => '\\' :: text

/-- The code units that a piece means. -/
def value : Piece → List Nat
  | .char c => codeUnits c.toNat
  | .lineBreak _ => [0x0a]
  | .escape _ code => codeUnits code
  | .continuation _ => []

/-- Whether a piece may stand in front of a text. A carriage return in front of a line feed would be
another line break, a dollar sign in front of a brace starts a substitution, and `\0` is followed by
no digit. -/
def IsLegal : Piece → (after : List Char) → Prop
  | .char c, after =>
    c ≠ '`' ∧ c ≠ '\\' ∧ c ≠ '\r' ∧ c ≠ '\n' ∧ (c = '$' → after.head? ≠ some '\x7b')
  | .lineBreak b, after => b = .cr → after.head? ≠ some '\n'
  | .escape text code, after =>
    Escape text code ∧ (text = ['\\', '0'] → ∀ c ∈ after.head?, c.isDigit = false)
  | .continuation text, after => text ∈ lineBreaks ∧ (text = ['\r'] → after.head? ≠ some '\n')

/-- What is read of a piece. -/
def read : Piece → List Char
  | .char c => [c]
  | .lineBreak b => b.text
  | .escape _ code => [charOfCode code]
  | .continuation _ => []

/-- A piece of which exactly what it means is read: no line break but a line feed, and no half of a
surrogate pair. -/
def IsKept : Piece → Prop
  | .lineBreak b => b = .lf
  | .escape _ code => isHighSurrogate code = false ∧ isLowSurrogate code = false
  | _ => True

instance : DecidablePred IsKept
  | .char _ => inferInstanceAs (Decidable True)
  | .lineBreak b => inferInstanceAs (Decidable (b = .lf))
  | .escape _ code =>
    inferInstanceAs (Decidable (isHighSurrogate code = false ∧ isLowSurrogate code = false))
  | .continuation _ => inferInstanceAs (Decidable True)

/-- The piece in a text that is saved with the given line breaks. -/
def saved (b : LineBreak) : Piece → Piece
  | .lineBreak _ => .lineBreak b
  | .continuation text =>
    .continuation (if text = ['\u2028'] ∨ text = ['\u2029'] then text else b.text)
  | piece => piece

@[simp] theorem saved_escape (b : LineBreak) (text : List Char) (code : Nat) :
    (escape text code).saved b = escape text code := rfl

end Piece

/-- The text of pieces. -/
def chunkText (pieces : List Piece) : List Char := pieces.flatMap Piece.text

/-- The code units that pieces mean. -/
def chunkValue (pieces : List Piece) : List Nat := pieces.flatMap Piece.value

/-- The pieces up to a substitution or the end of the template. -/
def IsChunk : List Piece → (rest : List Char) → Prop
  | [], rest => rest.head? = some '`' ∨ ['$', '\x7b'] <+: rest
  | piece :: pieces, rest => piece.IsLegal (chunkText pieces ++ rest) ∧ IsChunk pieces rest

/-- The pieces with one escape sequence for each surrogate pair. The second half of a pair has four
digits, the first half may be written in any way. -/
def joined : List Piece → List Piece
  | .escape first high :: .escape second low :: pieces =>
    if isHighSurrogate high ∧ isLowSurrogate low ∧ '\x7b' ∉ second then
      .escape (first ++ second) (pairCode high low) :: joined pieces
    else .escape first high :: joined (.escape second low :: pieces)
  | piece :: pieces => piece :: joined pieces
  | [] => []

/-- What is read of pieces. -/
def quasi (pieces : List Piece) : String := String.ofList ((joined pieces).flatMap Piece.read)

variable {pieces : List Piece} {rest : List Char}

@[simp] theorem chunkText_nil : chunkText [] = [] := rfl

@[simp] theorem chunkText_cons (piece : Piece) (pieces : List Piece) :
    chunkText (piece :: pieces) = piece.text ++ chunkText pieces := rfl

/-- A text that does not start with a character does not start with it in front of another one. -/
theorem head?_ne_of_append {text rest : List Char} {c : Char}
    (h : (text ++ rest).head? ≠ some c) : text.head? ≠ some c := by
  intro htext
  rw [List.head?_append, htext] at h
  exact h rfl

/-! ### Reading pieces -/

theorem lowSurrogate?_of_ne {c d : Char} (h : c ≠ '\\' ∨ d ≠ 'u') (text : List Char) :
    lowSurrogate? (c :: d :: text) = none := by
  rw [lowSurrogate?]
  rintro more heq
  obtain ⟨hc, heq⟩ := List.cons.inj heq
  obtain ⟨hd, -⟩ := List.cons.inj heq
  exact h.elim (· hc) (· hd)

theorem Escape.exists_cons {text : List Char} {code : Nat} (h : Escape text code) :
    ∃ body, text = '\\' :: body := by
  cases h <;> exact ⟨_, rfl⟩

/-- An escape sequence that is taken for the second half of a surrogate pair is one, and has four
digits. -/
theorem Escape.of_lowSurrogate? {text after : List Char} {code : Nat} (h : Escape text code)
    (hlow : lowSurrogate? (text ++ after) ≠ none) : isLowSurrogate code ∧ '\x7b' ∉ text := by
  have hu : ∀ {c : Char}, c ≠ 'u' → ∀ text, lowSurrogate? ('\\' :: c :: text) = none :=
    fun hc => lowSurrogate?_of_ne (.inr hc)
  cases h with
  | @letter l c hl =>
    refine absurd (hu ?_ _) hlow
    rintro rfl
    simp [controlLetters] at hl
  | @itself c hc =>
    refine absurd (hu ?_ _) hlow
    rintro rfl
    exact absurd hc (by decide)
  | byte hl hd => exact absurd (hu (by decide) _) hlow
  | @unit digits _ hl hd =>
    have hbrace : '\x7b' ∉ digits := fun hm => absurd (hd.isHexDigit _ hm) (by decide)
    refine ⟨?_, by simpa using hbrace⟩
    obtain ⟨found, hfound⟩ := Option.ne_none_iff_exists'.1 hlow
    obtain ⟨low, hvalue, hfound⟩ := Option.bind_eq_some_iff.1 hfound
    obtain rfl : code = low := Option.some.inj ((hexValue?_take hl hd after).symm.trans hvalue)
    obtain ⟨_, hguard, -⟩ := Option.bind_eq_some_iff.1 hfound
    by_contra hs
    have hnone : (guard (isLowSurrogate code) : Option Unit) = none := if_neg hs
    rw [hnone] at hguard
    cases hguard
  | braced => exact absurd rfl hlow

/-- What is taken for the second half of a surrogate pair is an escape sequence. -/
theorem exists_escape_of_lowSurrogate? (h : IsChunk pieces rest)
    (hlow : lowSurrogate? (chunkText pieces) ≠ none) :
    ∃ text code others, pieces = .escape text code :: others ∧ isLowSurrogate code ∧
      '\x7b' ∉ text := by
  cases pieces with
  | nil => exact absurd rfl hlow
  | cons piece others =>
    rw [chunkText_cons] at hlow
    obtain ⟨hlegal, -⟩ := h
    cases piece with
    | char c =>
      refine absurd ?_ hlow
      rw [Piece.text, List.singleton_append, lowSurrogate?]
      rintro more heq
      exact hlegal.2.1 (List.cons.inj heq).1
    | lineBreak b =>
      refine absurd ?_ hlow
      cases b <;> simp [Piece.text, LineBreak.text, lowSurrogate?]
    | continuation text =>
      refine absurd ?_ hlow
      have hbreak := hlegal.1
      simp only [lineBreaks, List.mem_cons, List.not_mem_nil, or_false] at hbreak
      rcases hbreak with rfl | rfl | rfl | rfl | rfl
      all_goals exact lowSurrogate?_of_ne (.inr (by decide)) _
    | escape text code => exact ⟨text, code, others, rfl, hlegal.1.of_lowSurrogate? hlow⟩

/-- A piece other than half of a surrogate pair is read by itself. -/
theorem unescape_piece {piece : Piece} (h : piece.IsLegal (chunkText pieces ++ rest))
    (hs : ∀ text code, piece = .escape text code → isHighSurrogate code →
      lowSurrogate? (chunkText pieces) = none) :
    unescape (piece.text ++ chunkText pieces) = piece.read ++ unescape (chunkText pieces) := by
  cases piece with
  | char c => exact unescape_cons_of_ne h.2.1 _
  | lineBreak b =>
    cases b with
    | lf => exact unescape_cons_of_ne (by decide) _
    | cr => exact unescape_cons_of_ne (by decide) _
    | crlf =>
      exact (unescape_cons_of_ne (by decide) _).trans
        (congrArg _ (unescape_cons_of_ne (by decide) _))
  | escape text code => exact unescape_escape h.1 (hs text code rfl)
  | continuation text => exact unescape_continued h.1 fun hr => head?_ne_of_append (h.2 hr)

/-- What is read of the text of pieces. -/
theorem unescape_chunkText (h : IsChunk pieces rest) :
    unescape (chunkText pieces) = (joined pieces).flatMap Piece.read := by
  induction pieces using joined.induct with
  | case1 first high second low pieces hpair ih =>
    obtain ⟨hfirst, hsecond, hpieces⟩ := h
    obtain ⟨hhigh, hlow, hbrace⟩ := hpair
    rw [joined, if_pos ⟨hhigh, hlow, hbrace⟩, List.flatMap_cons, ← ih hpieces]
    rcases hsecond.1.of_surrogate (.inr hlow) with ⟨digits, hlength, hdigits, rfl⟩ | ⟨_, _, _, rfl⟩
    · exact unescape_pair hfirst.1 hhigh hlength hdigits hlow _
    · simp at hbrace
  | case2 first high second low pieces hpair ih =>
    rw [joined, if_neg hpair, List.flatMap_cons, ← ih h.2, chunkText_cons]
    refine unescape_piece h.1 ?_
    rintro _ _ ⟨rfl, rfl⟩ hhigh
    by_contra hsome
    obtain ⟨text, code, others, heq, hlow, hbrace⟩ := exists_escape_of_lowSurrogate? h.2 hsome
    obtain ⟨⟨rfl, rfl⟩, -⟩ := List.cons.inj heq
    exact hpair ⟨hhigh, hlow, hbrace⟩
  | case3 piece pieces hsingle ih =>
    rw [joined, List.flatMap_cons, ← ih h.2, chunkText_cons]
    · refine unescape_piece h.1 ?_
      rintro first high rfl -
      by_contra hsome
      obtain ⟨text, code, others, rfl, -⟩ := exists_escape_of_lowSurrogate? h.2 hsome
      exact hsingle _ _ _ _ _ rfl rfl
    · exact hsingle
  | case4 => rfl

/-! ### What is read and what is meant -/

section Parts

variable {α β : Type} {f g : α → List β} {l : List α}

theorem length_flatMap_le (hl : ∀ a ∈ l, (g a).length ≤ (f a).length) :
    (l.flatMap g).length ≤ (l.flatMap f).length := by
  induction l with
  | nil => rfl
  | cons a l ih =>
    obtain ⟨ha, hl⟩ := List.forall_mem_cons.1 hl
    rw [List.flatMap_cons, List.flatMap_cons, List.length_append, List.length_append]
    exact Nat.add_le_add ha (ih hl)

/-- Lists put together of parts, each at least as long as its counterpart, are equal iff their parts
are. -/
theorem flatMap_eq_flatMap_iff (hl : ∀ a ∈ l, (g a).length ≤ (f a).length) :
    l.flatMap f = l.flatMap g ↔ ∀ a ∈ l, f a = g a := by
  induction l with
  | nil => simp
  | cons a l ih =>
    obtain ⟨ha, hl⟩ := List.forall_mem_cons.1 hl
    rw [List.forall_mem_cons, ← ih hl, List.flatMap_cons, List.flatMap_cons]
    refine ⟨fun h => ?_, fun ⟨hhead, htail⟩ => by rw [hhead, htail]⟩
    have hrest := length_flatMap_le hl
    have hlength := congrArg List.length h
    rw [List.length_append, List.length_append] at hlength
    exact List.append_inj h (by omega)

end Parts

theorem codeUnits_of_lt {code : Nat} (h : code < 0x10000) : codeUnits code = [code] := if_pos h

/-- The code units of a pair are its halves. -/
theorem codeUnits_pairCode {high low : Nat} (hh : isHighSurrogate high) (hl : isLowSurrogate low) :
    codeUnits (pairCode high low) = codeUnits high ++ codeUnits low := by
  simp only [isHighSurrogate, isLowSurrogate, Bool.and_eq_true, decide_eq_true_eq] at hh hl
  have hhigh : codeUnits high = [high] := codeUnits_of_lt (by omega)
  have hlow : codeUnits low = [low] := codeUnits_of_lt (by omega)
  have hlarge : ¬pairCode high low < 0x10000 := by
    unfold pairCode
    omega
  rw [hhigh, hlow, codeUnits, if_neg hlarge]
  unfold pairCode
  simp only [List.singleton_append, List.cons.injEq, and_true]
  omega

theorem pairCode_le {high low : Nat} (hh : isHighSurrogate high) (hl : isLowSurrogate low) :
    pairCode high low ≤ 0x10ffff := by
  simp only [isHighSurrogate, isLowSurrogate, Bool.and_eq_true, decide_eq_true_eq] at hh hl
  unfold pairCode
  omega

/-- The character of a code has the code units of the code, unless the code is half of a surrogate
pair. -/
theorem codeUnits_charOfCode_iff {code : Nat} (h : code ≤ 0x10ffff) :
    codeUnits (charOfCode code).toNat = codeUnits code ↔
      isHighSurrogate code = false ∧ isLowSurrogate code = false := by
  simp only [isHighSurrogate, isLowSurrogate, Bool.and_eq_false_iff, decide_eq_false_iff_not]
  unfold charOfCode
  split
  · rename_i hvalid
    have hcode : (Char.ofNat code).toNat = code := by
      rw [Char.ofNat, dif_pos hvalid]
      rfl
    rw [hcode]
    unfold Nat.isValidChar at hvalid
    refine iff_of_true rfl ?_
    omega
  · rename_i hvalid
    unfold Nat.isValidChar at hvalid
    have hunits : codeUnits code = [code] := codeUnits_of_lt (by omega)
    have hother : codeUnits ('\ufffd').toNat = [0xfffd] := by rfl
    rw [hunits, hother, List.cons.injEq]
    refine iff_of_false ?_ ?_
    · omega
    · omega

theorem length_codeUnits_le {code : Nat} (h : code ≤ 0x10ffff) :
    (codeUnits code).length ≤ (codeUnits (charOfCode code).toNat).length := by
  by_cases hs : isHighSurrogate code = false ∧ isLowSurrogate code = false
  · rw [(codeUnits_charOfCode_iff h).2 hs]
  · have hunits : codeUnits code = [code] := by
      refine codeUnits_of_lt ?_
      simp only [isHighSurrogate, isLowSurrogate, Bool.and_eq_false_iff,
        decide_eq_false_iff_not] at hs
      omega
    have hpos : ∀ c, 1 ≤ (codeUnits c).length := by
      intro c
      unfold codeUnits
      split
      · exact le_rfl
      · exact Nat.le_succ 1
    rw [hunits]
    exact hpos _

/-- Joining escape sequences changes nothing of what they mean. -/
theorem chunkValue_joined (pieces : List Piece) :
    chunkValue (joined pieces) = chunkValue pieces := by
  unfold chunkValue
  induction pieces using joined.induct with
  | case1 first high second low pieces hpair ih =>
    have hunits := codeUnits_pairCode hpair.1 hpair.2.1
    rw [joined, if_pos hpair]
    simp only [List.flatMap_cons, Piece.value, ih, hunits, List.append_assoc]
  | case2 first high second low pieces hpair ih =>
    rw [joined, if_neg hpair, List.flatMap_cons, ih, ← List.flatMap_cons]
  | case3 piece pieces hsingle ih =>
    rw [joined, List.flatMap_cons, ih, ← List.flatMap_cons]
    exact hsingle
  | case4 => rfl

/-- No code of an escape sequence is too large. -/
theorem code_le_of_mem_joined (h : IsChunk pieces rest) {text : List Char} {code : Nat}
    (hm : .escape text code ∈ joined pieces) : code ≤ 0x10ffff := by
  induction pieces using joined.induct with
  | case1 first high second low pieces hpair ih =>
    rw [joined, if_pos hpair] at hm
    rcases List.mem_cons.1 hm with heq | hm
    · cases heq
      exact pairCode_le hpair.1 hpair.2.1
    · exact ih h.2.2 hm
  | case2 first high second low pieces hpair ih =>
    rw [joined, if_neg hpair] at hm
    rcases List.mem_cons.1 hm with heq | hm
    · cases heq
      exact h.1.1.code_le
    · exact ih h.2 hm
  | case3 piece pieces hsingle ih =>
    rw [joined] at hm
    · rcases List.mem_cons.1 hm with heq | hm
      · cases heq
        exact h.1.1.code_le
      · exact ih h.2 hm
    · exact hsingle
  | case4 => cases hm

/-- The code units that are read of a piece. -/
def Piece.units (piece : Piece) : List Nat := piece.read.flatMap fun c => codeUnits c.toNat

theorem Piece.length_value_le {piece : Piece}
    (hc : ∀ text code, piece = .escape text code → code ≤ 0x10ffff) :
    piece.value.length ≤ piece.units.length := by
  cases piece with
  | char c => simp [value, units, read]
  | lineBreak b => cases b <;> decide
  | escape text code =>
    simpa [value, units, read] using length_codeUnits_le (hc text code rfl)
  | continuation text => exact le_rfl

theorem Piece.units_eq_value_iff {piece : Piece}
    (hc : ∀ text code, piece = .escape text code → code ≤ 0x10ffff) :
    piece.units = piece.value ↔ piece.IsKept := by
  cases piece with
  | char c => simp [value, units, read, IsKept]
  | lineBreak b => cases b <;> simp [IsKept, value, units, read, LineBreak.text, codeUnits]
  | escape text code =>
    simpa [value, units, read, IsKept] using codeUnits_charOfCode_iff (hc text code rfl)
  | continuation text => exact iff_of_true rfl trivial

/-- What is read is what is meant iff every piece is kept, where a surrogate pair is one piece. -/
theorem utf16_quasi_eq_iff (h : IsChunk pieces rest) :
    utf16 (quasi pieces) = chunkValue pieces ↔ ∀ piece ∈ joined pieces, piece.IsKept := by
  have hcode : ∀ piece ∈ joined pieces, ∀ text code, piece = .escape text code →
      code ≤ 0x10ffff := by
    rintro _ hm text code rfl
    exact code_le_of_mem_joined h hm
  have hunits : utf16 (quasi pieces) = (joined pieces).flatMap Piece.units := by
    rw [utf16, quasi, String.toList_ofList, List.flatMap_assoc]
    rfl
  rw [hunits, ← chunkValue_joined, chunkValue, flatMap_eq_flatMap_iff]
  · exact forall₂_congr fun piece hm => Piece.units_eq_value_iff (hcode piece hm)
  · exact fun piece hm => Piece.length_value_le (hcode piece hm)

/-! ### Line breaks of another kind -/

/-- The text that is saved with other line breaks starts as before, or else with a line break. -/
theorem head?_saved (h : IsChunk pieces rest) (b : LineBreak) :
    (chunkText (pieces.map (Piece.saved b)) ++ rest).head? = b.text.head? ∨
      (chunkText (pieces.map (Piece.saved b)) ++ rest).head? = (chunkText pieces ++ rest).head? ∧
        (chunkText pieces ++ rest).head? ≠ some '\n' := by
  cases pieces with
  | nil =>
    refine .inr ⟨rfl, ?_⟩
    rcases h with hquote | ⟨more, rfl⟩
    · rw [chunkText_nil, List.nil_append, hquote]
      decide
    · simp
  | cons piece others =>
    cases piece with
    | char c => exact .inr ⟨rfl, fun heq => h.1.2.2.2.1 (Option.some.inj heq)⟩
    | lineBreak c => exact .inl (by cases b <;> rfl)
    | escape text code =>
      obtain ⟨body, rfl⟩ := h.1.1.exists_cons
      exact .inr ⟨rfl, by simp [Piece.text]⟩
    | continuation text => exact .inr ⟨rfl, by simp [Piece.text]⟩

/-- What a text does not start with and no line break starts with, the saved text does not start
with. -/
theorem head?_saved_ne (h : IsChunk pieces rest) (b : LineBreak) {c : Char}
    (hb : b.text.head? ≠ some c)
    (hc : c = '\n' ∨ (chunkText pieces ++ rest).head? ≠ some c) :
    (chunkText (pieces.map (Piece.saved b)) ++ rest).head? ≠ some c := by
  rcases head?_saved h b with heq | ⟨heq, hfeed⟩
  · rwa [heq]
  · rw [heq]
    rcases hc with rfl | hc
    · exact hfeed
    · exact hc

/-- The pieces saved with other line breaks are pieces up to the same place. -/
theorem isChunk_saved (h : IsChunk pieces rest) (b : LineBreak) :
    IsChunk (pieces.map (Piece.saved b)) rest := by
  induction pieces with
  | nil => exact h
  | cons piece pieces ih =>
    obtain ⟨hlegal, hpieces⟩ := h
    refine ⟨?_, ih hpieces⟩
    have hreturn : b = .cr →
        (chunkText (pieces.map (Piece.saved b)) ++ rest).head? ≠ some '\n' := by
      rintro rfl
      exact head?_saved_ne hpieces .cr (by decide) (.inl rfl)
    cases piece with
    | char c =>
      obtain ⟨hquote, hslash, hcr, hlf, hdollar⟩ := hlegal
      refine ⟨hquote, hslash, hcr, hlf, fun hc => ?_⟩
      exact head?_saved_ne hpieces b (by cases b <;> decide) (.inr (hdollar hc))
    | lineBreak c => exact hreturn
    | escape text code =>
      refine ⟨hlegal.1, fun htext c hc => ?_⟩
      rcases head?_saved hpieces b with heq | ⟨heq, -⟩
      · rw [heq] at hc
        cases b
        all_goals
          cases hc
          rfl
      · rw [heq] at hc
        exact hlegal.2 htext c hc
    | continuation text =>
      rw [Piece.saved]
      split
      · rename_i hseparator
        exact ⟨hlegal.1, fun htext => absurd (htext ▸ hseparator) (by decide)⟩
      · refine ⟨by cases b <;> decide, fun hb => hreturn ?_⟩
        cases b
        all_goals first | rfl | cases hb

/-- Other line breaks join no other escape sequences. -/
theorem joined_saved (b : LineBreak) (pieces : List Piece) :
    joined (pieces.map (Piece.saved b)) = (joined pieces).map (Piece.saved b) := by
  induction pieces using joined.induct with
  | case1 first high second low pieces hpair ih =>
    simp only [List.map_cons, Piece.saved_escape, joined, if_pos hpair, ih]
  | case2 first high second low pieces hpair ih =>
    simp only [List.map_cons, Piece.saved_escape] at ih ⊢
    rw [joined, if_neg hpair, joined, if_neg hpair, ih, List.map_cons, Piece.saved_escape]
  | case3 piece pieces hsingle ih =>
    have hescape : ∀ {piece : Piece} {text code}, piece.saved b = .escape text code →
        piece = .escape text code := by
      rintro (_ | _ | _ | _) text code hp
      all_goals
        first
        | exact hp
        | cases hp
    rw [List.map_cons, joined, joined, ih, List.map_cons]
    · exact hsingle
    · intro first high second low others hp hpieces
      obtain ⟨next, more, rfl, hnext, -⟩ := List.map_eq_cons_iff.1 hpieces
      rw [hescape hnext] at hsingle
      exact hsingle _ _ _ _ _ (hescape hp) rfl
  | case4 => rfl

theorem lineBreak_mem_joined {b : LineBreak} :
    .lineBreak b ∈ joined pieces ↔ .lineBreak b ∈ pieces := by
  induction pieces using joined.induct with
  | case1 first high second low pieces hpair ih => simp [joined, if_pos hpair, ih]
  | case2 first high second low pieces hpair ih =>
    rw [joined, if_neg hpair, List.mem_cons, List.mem_cons, ih]
  | case3 piece pieces hsingle ih =>
    rw [joined, List.mem_cons, List.mem_cons, ih]
    exact hsingle
  | case4 => rfl

/-- Whether the same is read of a piece that is saved with another line break. -/
theorem Piece.read_saved_eq_iff {b : LineBreak} {piece : Piece} :
    (piece.saved b).read = (piece.saved .lf).read ↔ ∀ c, piece = .lineBreak c → b = .lf := by
  cases piece with
  | lineBreak c => cases b <;> simp [saved, read, LineBreak.text]
  | _ => exact iff_of_true rfl nofun

theorem Piece.length_read_saved_le (b : LineBreak) (piece : Piece) :
    (piece.saved .lf).read.length ≤ (piece.saved b).read.length := by
  cases piece with
  | lineBreak c => cases b <;> simp [saved, read, LineBreak.text]
  | _ => exact le_rfl

/-- Pieces that are saved with other line breaks are read as before only if no line is broken. -/
theorem quasi_saved_eq_iff (b : LineBreak) (pieces : List Piece) :
    quasi (pieces.map (Piece.saved b)) = quasi (pieces.map (Piece.saved .lf)) ↔
      b = .lf ∨ ∀ c, .lineBreak c ∉ pieces := by
  rw [quasi, quasi, String.ofList_inj, joined_saved, joined_saved, List.flatMap_map,
    List.flatMap_map, flatMap_eq_flatMap_iff fun piece _ => piece.length_read_saved_le b]
  simp only [Piece.read_saved_eq_iff]
  constructor
  · intro h
    by_cases hb : b = .lf
    · exact .inl hb
    · exact .inr fun c hc => hb (h _ (lineBreak_mem_joined.2 hc) c rfl)
  · rintro (rfl | hnone) piece hm c rfl
    · rfl
    · exact absurd (lineBreak_mem_joined.1 hm) (hnone c)

end Source

end ScriptForms
