import Mathlib.Algebra.Ring.Nat
import Mathlib.Data.List.TakeWhile
import ScriptForms.Form.Printer
import ScriptForms.Source.Escape

/-!
# Spellings of strings

A character of a string can be written in many ways: as itself, by an escape sequence for it, or by
two escape sequences for its code units. Whatever way is taken for each character, and wherever the
line is continued between them, the value that is read is the same. The printer of forms writes one
of these spellings.

* `Text.WritesHex`: a number in hexadecimal digits.
* `Source.Escape`: the escape sequences with the codes that they stand for.
* `Source.Spelling`, `Source.Writes`: the texts that write a character, and a string.
* `Source.unescape_spelling`: a character is read wherever it is spelled.
* `Source.unescape_writes`: what is written is read.
-/

namespace ScriptForms

/-! ### Numbers and code units -/

namespace Text

/-- The code units of a code: the code itself, or a surrogate pair if it is too large. -/
def codeUnits (code : Nat) : List Nat :=
  if code < 0x10000 then [code]
  else [0xd800 + (code - 0x10000) / 0x400, 0xdc00 + (code - 0x10000) % 0x400]

/-- A hexadecimal digit, in either case. -/
def IsDigitOf (c : Char) (digit : Nat) : Prop :=
  digit < 16 ∧ (c = Nat.digitChar digit ∨ c = (Nat.digitChar digit).toUpper)

instance (c : Char) (digit : Nat) : Decidable (IsDigitOf c digit) :=
  inferInstanceAs (Decidable (_ ∧ _))

/-- Hexadecimal digits write a number, the most significant one first. -/
inductive WritesHex : List Char → Nat → Prop
  | nil : WritesHex [] 0
  | concat {digits : List Char} {c : Char} {value digit : Nat} (h : WritesHex digits value)
      (hc : IsDigitOf c digit) : WritesHex (digits ++ [c]) (16 * value + digit)

theorem hexDigit?_digitChar : ∀ digit < 16, hexDigit? (Nat.digitChar digit) = some digit ∧
    hexDigit? (Nat.digitChar digit).toUpper = some digit := by
  decide

theorem IsDigitOf.hexDigit? {c : Char} {digit : Nat} (h : IsDigitOf c digit) :
    Text.hexDigit? c = some digit := by
  obtain ⟨hdigit, rfl | rfl⟩ := h
  · exact (hexDigit?_digitChar digit hdigit).1
  · exact (hexDigit?_digitChar digit hdigit).2

variable {digits : List Char} {value : Nat}

theorem WritesHex.mapM_hexDigit? (h : WritesHex digits value) :
    ∃ values, digits.mapM Text.hexDigit? = some values ∧
      values.foldl (fun n d => 16 * n + d) 0 = value := by
  induction h with
  | nil => exact ⟨[], rfl, rfl⟩
  | @concat digits c value digit _ hc ih =>
    obtain ⟨values, hvalues, hvalue⟩ := ih
    refine ⟨values ++ [digit], ?_, by rw [List.foldl_append, hvalue]; rfl⟩
    simp [List.mapM_append, hvalues, hc.hexDigit?]

theorem WritesHex.isHexDigit (h : WritesHex digits value) : ∀ c ∈ digits, Text.isHexDigit c := by
  have htable : ∀ digit < 16, Text.isHexDigit (Nat.digitChar digit) ∧
      Text.isHexDigit (Nat.digitChar digit).toUpper := by
    decide
  induction h with
  | nil => simp
  | concat _ hc ih =>
    refine List.forall_mem_append.2 ⟨ih, List.forall_mem_singleton.2 ?_⟩
    obtain ⟨hdigit, rfl | rfl⟩ := hc
    · exact (htable _ hdigit).1
    · exact (htable _ hdigit).2

/-- There is no plus sign in front of digits. -/
theorem WritesHex.stripPlus_eq (h : WritesHex digits value) : Text.stripPlus digits = digits := by
  unfold Text.stripPlus
  split
  · exact absurd (h.isHexDigit '+' List.mem_cons_self) (by decide)
  · rfl

/-- What digits write is what is read of them, if it fits in 32 bits. -/
theorem WritesHex.hexValue? (h : WritesHex digits value) (hne : digits ≠ [])
    (hv : value < 0x100000000) : Text.hexValue? digits = some value := by
  obtain ⟨values, hvalues, hvalue⟩ := h.mapM_hexDigit?
  unfold Text.hexValue?
  rw [h.stripPlus_eq]
  refine Option.bind_eq_some_iff.2 ⟨(), if_pos (by simpa using hne), ?_⟩
  refine Option.bind_eq_some_iff.2 ⟨values, hvalues, ?_⟩
  exact Option.bind_eq_some_iff.2 ⟨(), if_pos (hvalue ▸ hv), congrArg some hvalue⟩

theorem WritesHex.lt (h : WritesHex digits value) : value < 16 ^ digits.length := by
  induction h with
  | nil => exact Nat.one_pos
  | concat _ hc ih =>
    rw [List.length_append, List.length_singleton, Nat.pow_succ]
    have := hc.1
    omega

section Few

variable {a b c d : Char} {w x y z : Nat}

theorem writesHex_two (ha : IsDigitOf a w) (hb : IsDigitOf b x) :
    WritesHex [a, b] (16 * w + x) := by
  simpa using (WritesHex.nil.concat ha).concat hb

theorem writesHex_four (ha : IsDigitOf a w) (hb : IsDigitOf b x) (hc : IsDigitOf c y)
    (hd : IsDigitOf d z) : WritesHex [a, b, c, d] (16 * (16 * (16 * w + x) + y) + z) :=
  ((writesHex_two ha hb).concat hc).concat hd

end Few

end Text

open Text

namespace Source

/-! ### Escape sequences and spellings -/

/-- The letters that stand for control characters behind a backslash. -/
def controlLetters : List (Char × Char) :=
  [('n', '\n'), ('t', '\t'), ('r', '\r'), ('b', '\x08'), ('f', '\x0c'), ('v', '\x0b'),
    ('0', '\x00')]

/-- The line breaks that continue a line behind a backslash. -/
def lineBreaks : List (List Char) := [['\n'], ['\r'], ['\r', '\n'], ['\u2028'], ['\u2029']]

/-- Whether a character stands for itself behind a backslash. -/
def standsForItself (c : Char) : Bool :=
  !("ntrbfvxu".toList.contains c || c.isDigit || isLineEnd c)

/-- An escape sequence and the code that it stands for. -/
inductive Escape : List Char → Nat → Prop
  /-- A letter for a control character. -/
  | letter {l c : Char} (h : (l, c) ∈ controlLetters) : Escape ['\\', l] c.toNat
  /-- A character for itself. -/
  | itself {c : Char} (h : standsForItself c) : Escape ['\\', c] c.toNat
  /-- A code in two digits. -/
  | byte {digits : List Char} {code : Nat} (hl : digits.length = 2) (hd : WritesHex digits code) :
      Escape ('\\' :: 'x' :: digits) code
  /-- A code in four digits. -/
  | unit {digits : List Char} {code : Nat} (hl : digits.length = 4) (hd : WritesHex digits code) :
      Escape ('\\' :: 'u' :: digits) code
  /-- A code in any number of digits. -/
  | braced {digits : List Char} {code : Nat} (hne : digits ≠ []) (hd : WritesHex digits code)
      (hc : code ≤ 0x10ffff) : Escape ('\\' :: 'u' :: '\x7b' :: (digits ++ ['\x7d'])) code

/-- The texts that write a character. -/
inductive Spelling (c : Char) : List Char → Prop
  /-- The character itself. -/
  | itself (h : c ≠ '\\') : Spelling c [c]
  /-- An escape sequence for the character. -/
  | escape {text : List Char} (h : Escape text c.toNat) : Spelling c text
  /-- An escape sequence of four digits for each of its two code units. -/
  | pair {first second : List Char} {high low : Nat} (hc : codeUnits c.toNat = [high, low])
      (hf : first.length = 4) (hhigh : WritesHex first high)
      (hs : second.length = 4) (hlow : WritesHex second low) :
      Spelling c ('\\' :: 'u' :: (first ++ '\\' :: 'u' :: second))

/-- A text that writes a string: one spelling for each character, with continued lines between them.
A carriage return that continues a line has no line feed behind it. -/
inductive Writes : (text value : List Char) → Prop
  | nil : Writes [] []
  | char {part text value : List Char} {c : Char} (hc : Spelling c part) (h : Writes text value) :
      Writes (part ++ text) (c :: value)
  | continued {lineBreak text value : List Char} (hb : lineBreak ∈ lineBreaks)
      (hr : lineBreak = ['\r'] → text.head? ≠ some '\n') (h : Writes text value) :
      Writes ('\\' :: (lineBreak ++ text)) value

/-! ### Reading one character after the other -/

theorem codeDigits_snd_length (input : List Char) : (codeDigits input).2.length ≤ input.length := by
  unfold codeDigits
  split
  · rename_i rest
    have hdrop := (List.dropWhile_suffix (l := rest) (· ≠ '\x7d')).length_le
    simp only [List.length_drop, List.length_cons]
    omega
  · simp only [List.length_drop]
    omega

theorem lowSurrogate?_length {input rest : List Char} {low : Nat}
    (h : lowSurrogate? input = some (low, rest)) : rest.length ≤ input.length := by
  unfold lowSurrogate? at h
  split at h
  · rename_i more
    obtain ⟨_, -, h⟩ := Option.bind_eq_some_iff.1 h
    obtain ⟨_, -, h⟩ := Option.bind_eq_some_iff.1 h
    obtain ⟨-, rfl⟩ := Prod.mk.inj (Option.some.inj h)
    simp only [List.length_drop, List.length_cons]
    omega
  · cases h

theorem unescapeCode_length (input : List Char) :
    (unescapeCode input).2.length ≤ input.length := by
  have hdigits := codeDigits_snd_length input
  unfold unescapeCode
  dsimp only
  split
  · exact hdigits
  · split
    · rename_i hlow
      split at hlow
      · exact (lowSurrogate?_length hlow).trans hdigits
      · cases hlow
    · exact hdigits

/-- An escape leaves no more than was there. -/
theorem unescapeFirst_length (input : List Char) :
    (unescapeFirst input).2.length ≤ input.length := by
  unfold unescapeFirst
  split
  case h_8 rest =>
    split
    · simp only [List.length_drop, List.length_cons]
      omega
    · simp only [List.length_drop, List.length_cons]
      omega
  case h_9 rest =>
    have hcode := unescapeCode_length rest
    simp only [List.length_cons]
    omega
  case h_10 rest =>
    simp only [List.length_cons]
    omega
  case h_11 c rest _ _ _ _ _ _ _ _ _ _ =>
    split
    · simp
    · simp
  all_goals simp

/-- Any bound that is long enough gives the same value. -/
theorem unescapeWithin_congr {bound other text : List Char} (hb : text.length ≤ bound.length)
    (ho : text.length ≤ other.length) : unescapeWithin bound text = unescapeWithin other text := by
  induction bound generalizing other text with
  | nil =>
    obtain rfl : text = [] := List.length_eq_zero_iff.1 (Nat.le_zero.1 hb)
    cases other <;> rfl
  | cons b bound ih =>
    cases text with
    | nil => cases other <;> simp [unescapeWithin]
    | cons c text =>
      obtain ⟨o, other, rfl⟩ := List.exists_cons_of_length_pos (Nat.lt_of_lt_of_le (by simp) ho)
      rw [List.length_cons, List.length_cons, Nat.add_le_add_iff_right] at hb ho
      by_cases hc : c = '\\'
      · subst hc
        have hlength := unescapeFirst_length text
        rw [unescapeWithin, unescapeWithin, ih (hlength.trans hb) (hlength.trans ho)]
      · rw [unescapeWithin, unescapeWithin, ih hb ho]
        all_goals exact hc

theorem unescape_cons_of_ne {c : Char} (h : c ≠ '\\') (text : List Char) :
    unescape (c :: text) = c :: unescape text := by
  rw [unescape, unescapeWithin, unescape]
  exact h

theorem unescape_backslash (text : List Char) :
    unescape ('\\' :: text) = (unescapeFirst text).1 ++ unescape (unescapeFirst text).2 := by
  rw [unescape, unescapeWithin, unescapeWithin_congr (unescapeFirst_length text) le_rfl, unescape]

/-! ### Codes -/

theorem charOfCode_toNat (c : Char) : charOfCode c.toNat = c := by
  have hvalid : c.toNat.isValidChar := c.valid
  rw [charOfCode, if_pos hvalid, Char.ofNat_toNat]

theorem code_le (c : Char) : c.toNat ≤ 0x10ffff := by
  have hvalid : c.toNat.isValidChar := c.valid
  unfold Nat.isValidChar at hvalid
  omega

/-- A character is no surrogate. -/
theorem not_isSurrogate_toNat (c : Char) :
    isHighSurrogate c.toNat = false ∧ isLowSurrogate c.toNat = false := by
  have hvalid : c.toNat.isValidChar := c.valid
  unfold Nat.isValidChar at hvalid
  simp only [isHighSurrogate, isLowSurrogate, Bool.and_eq_false_iff, decide_eq_false_iff_not]
  omega

/-- Two code units make the code that they are the units of. -/
theorem pairCode_codeUnits {code high low : Nat} (hc : code ≤ 0x10ffff)
    (h : codeUnits code = [high, low]) :
    isHighSurrogate high ∧ isLowSurrogate low ∧ pairCode high low = code := by
  unfold codeUnits at h
  split at h
  · cases h
  · simp only [List.cons.injEq, and_true] at h
    obtain ⟨hhigh, hlow⟩ := h
    refine ⟨?_, ?_, ?_⟩
    · simp only [isHighSurrogate, Bool.and_eq_true, decide_eq_true_eq]
      omega
    · simp only [isLowSurrogate, Bool.and_eq_true, decide_eq_true_eq]
      omega
    · unfold pairCode
      omega

section Codes

variable {digits : List Char} {code : Nat}

theorem codeDigits_unit (hl : digits.length = 4) (hd : WritesHex digits code) (text : List Char) :
    codeDigits (digits ++ text) = (digits, text) := by
  obtain ⟨first, rest, rfl⟩ := List.exists_cons_of_length_pos (l := digits) (by omega)
  have hfirst : first ≠ '\x7b' := by
    rintro rfl
    exact absurd (hd.isHexDigit '\x7b' (by simp)) (by decide)
  rw [List.cons_append, codeDigits]
  · rw [← List.cons_append, List.take_left' hl, List.drop_left' hl]
  · exact fun _ h => hfirst (List.cons.inj h).1

theorem codeDigits_braced (hd : WritesHex digits code) (text : List Char) :
    codeDigits ('\x7b' :: (digits ++ '\x7d' :: text)) = (digits, text) := by
  have hdigits : ∀ c ∈ digits, decide (c ≠ '\x7d') = true := by
    intro c hc
    refine decide_eq_true ?_
    rintro rfl
    exact absurd (hd.isHexDigit '\x7d' hc) (by decide)
  rw [codeDigits, List.takeWhile_append_of_pos hdigits, List.dropWhile_append_of_pos hdigits]
  simp

/-- A code stands for its character, unless it is the first half of a surrogate pair. -/
theorem unescapeCode_of_single {input text : List Char} (hi : codeDigits input = (digits, text))
    (hv : hexValue? digits = some code)
    (hs : isHighSurrogate code → lowSurrogate? text = none) :
    unescapeCode input = ([charOfCode code], text) := by
  simp only [unescapeCode, hi, hv]
  split
  · rename_i low rest hlow
    split at hlow
    · rename_i hhigh
      rw [hs hhigh] at hlow
      cases hlow
    · cases hlow
  · rfl

/-- Two codes that form a surrogate pair stand for one character. -/
theorem unescapeCode_of_high {input text rest : List Char} {low : Nat}
    (hi : codeDigits input = (digits, text)) (hv : hexValue? digits = some code)
    (hs : isHighSurrogate code) (hl : lowSurrogate? text = some (low, rest)) :
    unescapeCode input = ([charOfCode (pairCode code low)], rest) := by
  simp [unescapeCode, hi, hv, hs, hl]

theorem hexValue?_unit (hl : digits.length = 4) (hd : WritesHex digits code) :
    hexValue? digits = some code := by
  have hlt := hd.lt
  rw [hl] at hlt
  exact hd.hexValue? (List.ne_nil_of_length_pos (by omega)) (hlt.trans (by decide))

theorem hexValue?_take (hl : digits.length = 4) (hd : WritesHex digits code) (text : List Char) :
    hexValue? ((digits ++ text).take 4) = some code := by
  rw [List.take_left' hl, hexValue?_unit hl hd]

theorem lowSurrogate?_unit (hl : digits.length = 4) (hd : WritesHex digits code)
    (hs : isLowSurrogate code) (text : List Char) :
    lowSurrogate? ('\\' :: 'u' :: (digits ++ text)) = some (code, text) := by
  refine Option.bind_eq_some_iff.2 ⟨code, hexValue?_take hl hd text, ?_⟩
  exact Option.bind_eq_some_iff.2 ⟨(), if_pos hs, by rw [List.drop_left' hl]; rfl⟩

end Codes

/-! ### Reading a spelling -/

theorem unescapeFirst_standsForItself {c : Char} (h : standsForItself c) (text : List Char) :
    unescapeFirst (c :: text) = ([c], text) := by
  have hne : ∀ d, standsForItself d = false → c ≠ d := by
    rintro d hd rfl
    rw [hd] at h
    cases h
  have hbreak : isLineEnd c = false := by
    simp only [standsForItself, Bool.not_or, Bool.and_eq_true, Bool.not_eq_true'] at h
    exact h.2
  rw [unescapeFirst, hbreak]
  · rfl
  case x_10 => exact fun _ hc _ => hne '\r' (by decide) hc
  all_goals exact hne _ (by decide)

theorem unescapeFirst_return {text : List Char} (h : text.head? ≠ some '\n') :
    unescapeFirst ('\r' :: text) = ([], text) := by
  rw [unescapeFirst]
  · rfl
  case x_10 =>
    rintro rest - rfl
    exact h rfl
  all_goals decide

/-- An escape sequence is read as the character of its code, unless it is the first half of a
surrogate pair. -/
theorem unescape_escape {part text : List Char} {code : Nat} (he : Escape part code)
    (hs : isHighSurrogate code → lowSurrogate? text = none) :
    unescape (part ++ text) = charOfCode code :: unescape text := by
  cases he with
  | @letter l c h =>
    simp only [controlLetters, List.mem_cons, Prod.mk.injEq, List.not_mem_nil, or_false] at h
    rw [charOfCode_toNat]
    rcases h with ⟨rfl, rfl⟩ | ⟨rfl, rfl⟩ | ⟨rfl, rfl⟩ | ⟨rfl, rfl⟩ | ⟨rfl, rfl⟩ | ⟨rfl, rfl⟩ |
      ⟨rfl, rfl⟩
    all_goals exact unescape_backslash _
  | @itself c h =>
    rw [charOfCode_toNat]
    exact (unescape_backslash (c :: text)).trans (by rw [unescapeFirst_standsForItself h]; rfl)
  | @byte digits _ hl hd =>
    have hlt := hd.lt
    rw [hl] at hlt
    have hvalue := hd.hexValue? (List.ne_nil_of_length_pos (by omega)) (hlt.trans (by decide))
    rw [List.cons_append, List.cons_append, unescape_backslash, unescapeFirst,
      List.take_left' hl, List.drop_left' hl, hvalue]
    rfl
  | @unit digits _ hl hd =>
    rw [List.cons_append, List.cons_append, unescape_backslash, unescapeFirst,
      unescapeCode_of_single (codeDigits_unit hl hd text) (hexValue?_unit hl hd) hs]
    rfl
  | @braced digits _ hne hd hc =>
    have hvalue := hd.hexValue? hne (by omega)
    have hdigits := codeDigits_braced hd text
    simp only [List.cons_append, List.append_assoc, List.nil_append]
    rw [unescape_backslash, unescapeFirst, unescapeCode_of_single hdigits hvalue hs]
    rfl

theorem Escape.code_le {text : List Char} {code : Nat} (h : Escape text code) :
    code ≤ 0x10ffff := by
  cases h with
  | letter => exact Source.code_le _
  | itself => exact Source.code_le _
  | byte hl hd =>
    have hlt := hd.lt
    rw [hl] at hlt
    omega
  | unit hl hd =>
    have hlt := hd.lt
    rw [hl] at hlt
    omega
  | braced _ _ hc => exact hc

/-- Half of a surrogate pair is written in four digits or in braces. -/
theorem Escape.of_surrogate {part : List Char} {code : Nat} (h : Escape part code)
    (hs : isHighSurrogate code ∨ isLowSurrogate code) :
    (∃ digits, digits.length = 4 ∧ WritesHex digits code ∧ part = '\\' :: 'u' :: digits) ∨
      ∃ digits, digits ≠ [] ∧ WritesHex digits code ∧
        part = '\\' :: 'u' :: '\x7b' :: (digits ++ ['\x7d']) := by
  have hchar : ∀ c : Char, c.toNat ≠ code := by
    rintro c rfl
    rw [(not_isSurrogate_toNat c).1, (not_isSurrogate_toNat c).2] at hs
    simp at hs
  cases h with
  | @letter _ c _ => exact absurd rfl (hchar c)
  | @itself c _ => exact absurd rfl (hchar c)
  | byte hl hd =>
    have hlt := hd.lt
    simp only [hl, isHighSurrogate, isLowSurrogate, Bool.and_eq_true, decide_eq_true_eq] at hlt hs
    omega
  | unit hl hd => exact .inl ⟨_, hl, hd, rfl⟩
  | braced hne hd hc => exact .inr ⟨_, hne, hd, rfl⟩

/-- Two escape sequences for a surrogate pair are read as one character, if the second one has four
digits. -/
theorem unescape_pair {part digits : List Char} {high low : Nat} (he : Escape part high)
    (hh : isHighSurrogate high) (hl : digits.length = 4) (hd : WritesHex digits low)
    (hs : isLowSurrogate low) (text : List Char) :
    unescape (part ++ ('\\' :: 'u' :: (digits ++ text))) =
      charOfCode (pairCode high low) :: unescape text := by
  have hlow := lowSurrogate?_unit hl hd hs text
  have hcode := he.code_le
  rcases he.of_surrogate (.inl hh) with ⟨first, hfirst, hf, rfl⟩ | ⟨first, hne, hf, rfl⟩
  · rw [List.cons_append, List.cons_append, unescape_backslash, unescapeFirst,
      unescapeCode_of_high (codeDigits_unit hfirst hf _) (hexValue?_unit hfirst hf) hh hlow]
    rfl
  · have hvalue := hf.hexValue? hne (by omega)
    have hdigits := codeDigits_braced hf ('\\' :: 'u' :: (digits ++ text))
    simp only [List.cons_append, List.append_assoc, List.nil_append]
    rw [unescape_backslash, unescapeFirst, unescapeCode_of_high hdigits hvalue hh hlow]
    rfl

/-- A spelling of a character is read as the character, whatever follows it. -/
theorem unescape_spelling {c : Char} {part : List Char} (h : Spelling c part) (text : List Char) :
    unescape (part ++ text) = c :: unescape text := by
  cases h with
  | itself hc => exact unescape_cons_of_ne hc text
  | escape he =>
    have hsingle : isHighSurrogate c.toNat → lowSurrogate? text = none := by
      rw [(not_isSurrogate_toNat c).1]
      exact nofun
    rw [unescape_escape he hsingle, charOfCode_toNat]
  | @pair first second high low hc hf hhigh hs hlow =>
    obtain ⟨hh, hl, hcode⟩ := pairCode_codeUnits (code_le c) hc
    have hpair := unescape_pair (.unit hf hhigh) hh hs hlow hl text
    simp only [List.cons_append, List.append_assoc] at hpair ⊢
    rw [hpair, hcode, charOfCode_toNat]

/-- A line that is continued adds nothing. -/
theorem unescape_continued {lineBreak text : List Char} (hb : lineBreak ∈ lineBreaks)
    (hr : lineBreak = ['\r'] → text.head? ≠ some '\n') :
    unescape ('\\' :: (lineBreak ++ text)) = unescape text := by
  rw [unescape_backslash]
  simp only [lineBreaks, List.mem_cons, List.not_mem_nil, or_false] at hb
  rcases hb with rfl | rfl | rfl | rfl | rfl
  · rfl
  · rw [List.singleton_append, unescapeFirst_return (hr rfl)]
    rfl
  · rfl
  · rfl
  · rfl

/-- Whatever the spelling, the value that is read is the value that is written. -/
theorem unescape_eq_of_writes {text value : List Char} (h : Writes text value) :
    unescape text = value := by
  induction h with
  | nil => rfl
  | char hc _ ih => rw [unescape_spelling hc, ih]
  | continued hb hr _ ih => rw [unescape_continued hb hr, ih]

/-! ### Printed strings -/

theorem writesHex_hexPair {n : Nat} (hn : n < 0x100) :
    WritesHex (['0', '0'] ++ Json.hexPair n) n := by
  have hzero : IsDigitOf '0' 0 := by decide
  have hfirst : IsDigitOf (Nat.digitChar (n / 16)) (n / 16) := ⟨by omega, .inl rfl⟩
  have hsecond : IsDigitOf (Nat.digitChar (n % 16)) (n % 16) :=
    ⟨Nat.mod_lt n (by decide), .inl rfl⟩
  have hdigits := writesHex_four hzero hzero hfirst hsecond
  rwa [show 16 * (16 * (16 * 0 + 0) + n / 16) + n % 16 = n by omega] at hdigits

/-- A short escape of the printer is a letter for a control character, or a character for itself. -/
theorem escape_of_mem_shortEscapes : ∀ entry ∈ Json.shortEscapes,
    (entry.2, entry.1) ∈ controlLetters ∨ entry.1 = entry.2 ∧ standsForItself entry.1 := by
  decide

/-- The printer of forms spells each character. -/
theorem spelling_quoteChar (c : Char) : Spelling c (Json.quoteChar c) := by
  rcases Json.quoteChar_cases c with ⟨letter, hm, h⟩ | ⟨hcontrol, h⟩ | ⟨-, hslash, h⟩ <;> rw [h]
  · rcases escape_of_mem_shortEscapes _ hm with hletter | ⟨heq, hitself⟩
    · exact .escape (.letter hletter)
    · dsimp only at heq hitself
      subst heq
      exact .escape (.itself hitself)
  · exact .escape (.unit rfl (writesHex_hexPair (by omega)))
  · exact .itself hslash

theorem writes_quoteBody (value : List Char) : Writes (Json.quoteBody value) value := by
  induction value with
  | nil => exact .nil
  | cons c value ih => exact .char (spelling_quoteChar c) ih

theorem stripQuotes_quoted (body : List Char) : stripQuotes ('"' :: (body ++ ['"'])) = body := by
  simp [stripQuotes]

/-- Every text that writes a string is read as that string. What is printed for a string is such a
text between quotes, so that the string is what is read of it. -/
theorem unescape_writes :
    (∀ text value, Writes text value → unescape text = value) ∧
    ∀ value : String, ∃ text body, (Form.string value).print = .ok text ∧
      text.toList = '"' :: (body ++ ['"']) ∧ Writes body value.toList ∧
      stringValue text.toList = value := by
  refine ⟨fun text value => unescape_eq_of_writes, fun value => ?_⟩
  have hwrites := writes_quoteBody value.toList
  refine ⟨String.ofList (Json.quote value.toList), Json.quoteBody value.toList, rfl, ?_, hwrites,
    ?_⟩
  · rw [String.toList_ofList]
    rfl
  · rw [String.toList_ofList, stringValue, Json.quote, List.cons_append, stripQuotes_quoted,
      unescape_eq_of_writes hwrites, String.ofList_toList]

/-- A text in which every character of `"A😀\n"` has another kind of spelling, on two lines. -/
def continuedText : List Char := "\\x41\\\r\n\\uD83D\\uDe00\\n".toList

theorem unescape_continuedText :
    Writes continuedText ['A', '😀', '\n'] ∧ unescape continuedText = ['A', '😀', '\n'] := by
  have hbyte : WritesHex ['4', '1'] 0x41 :=
    writesHex_two (w := 4) (x := 1) (by decide) (by decide)
  have hhigh : WritesHex ['D', '8', '3', 'D'] 0xd83d :=
    writesHex_four (w := 13) (x := 8) (y := 3) (z := 13) (by decide) (by decide) (by decide)
      (by decide)
  have hlow : WritesHex ['D', 'e', '0', '0'] 0xde00 :=
    writesHex_four (w := 13) (x := 14) (y := 0) (z := 0) (by decide) (by decide) (by decide)
      (by decide)
  have hend : Writes ['\\', 'n'] ['\n'] := .char (.escape (.letter (by decide))) .nil
  have hpair := Writes.char (c := '😀') (.pair (by decide) rfl hhigh rfl hlow) hend
  have hline : Writes ('\\' :: (['\r', '\n'] ++ _)) _ := .continued (by decide) nofun hpair
  have hwrites : Writes continuedText ['A', '😀', '\n'] :=
    .char (c := 'A') (.escape (.byte rfl hbyte)) hline
  exact ⟨hwrites, unescape_writes.1 _ _ hwrites⟩

end Source

end ScriptForms
