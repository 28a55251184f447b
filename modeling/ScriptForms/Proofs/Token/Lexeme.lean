import ScriptForms.Proofs.Form.Literal

/-!
# Lexemes

A text is cut into white space and lexemes. Each kind of lexeme is described by its characters and
by what may follow it; the only text without a lexeme is that of a string that nothing closes.

* `Token.QuotesEscaped`, `Token.IsStringBody`: where a string goes on, and where it ends.
* `Token.Lexeme`: a lexeme in front of a text, with the token it spells.
* `Token.OpensString`: the texts that start with a string without an end.
* `Token.first_eq_some_iff`, `Token.first_eq_none_iff`: `Token.first` finds exactly the lexemes.
* `Token.stringEnd_utf8Bytes`: the end of a string, searched for byte by byte, is that of its
  lexeme.
-/

namespace ScriptForms

open Form

namespace Form

/-- What follows a text that escapes nothing is read as if it stood alone. -/
theorem endsEscaping_append {front : List Char} (h : ¬endsEscaping front) (text : List Char) :
    endsEscaping (front ++ text) = endsEscaping text := by
  rw [endsEscaping_eq, Bool.not_eq_true] at h
  have happend : escapes false (front ++ text) = escapes (escapes false front) text :=
    List.foldl_append
  rw [endsEscaping_eq, endsEscaping_eq, happend, h]

end Form

namespace Bracket

theorem eq_opening {c : Char} {b : Bracket} (h : ofOpening? c = some b) : c = b.opening := by
  unfold ofOpening? at h
  split_ifs at h
  all_goals
    cases h
    assumption

theorem eq_closing {c : Char} {b : Bracket} (h : ofClosing? c = some b) : c = b.closing := by
  unfold ofClosing? at h
  split_ifs at h
  all_goals
    cases h
    assumption

end Bracket

namespace Token

/-! ### Strings -/

/-- A backslash escapes every quote of the text, so that a string goes on after each of them. -/
def QuotesEscaped (text : List Char) : Prop :=
  ∀ front back, text = front ++ '"' :: back → endsEscaping front

/-- The text of a string behind its opening quote: it ends with the first quote that no backslash
escapes. -/
def IsStringBody (body : List Char) : Prop :=
  ∃ text, body = text ++ ['"'] ∧ QuotesEscaped text ∧ ¬endsEscaping text

theorem quotesEscaped_of_not_mem {text : List Char} (h : '"' ∉ text) : QuotesEscaped text := by
  rintro front back rfl
  simp at h

theorem not_quotesEscaped_quote (text : List Char) : ¬QuotesEscaped ('"' :: text) := by
  intro h
  exact absurd (h [] text rfl) (by decide)

theorem isStringBody_quote_iff {body : List Char} : IsStringBody ('"' :: body) ↔ body = [] := by
  constructor
  · rintro ⟨text, heq, hquotes, -⟩
    cases text with
    | nil => exact (List.cons.inj heq).2
    | cons c text =>
      obtain ⟨rfl, -⟩ := List.cons.inj heq
      exact absurd hquotes (not_quotesEscaped_quote text)
  · rintro rfl
    exact ⟨[], rfl, quotesEscaped_of_not_mem (by simp), by decide⟩

section Front

variable {front : List Char} (hq : QuotesEscaped front) (he : ¬endsEscaping front)

include hq he

theorem quotesEscaped_append_iff {text : List Char} :
    QuotesEscaped (front ++ text) ↔ QuotesEscaped text := by
  constructor
  · intro h inner back heq
    rw [← endsEscaping_append he]
    exact h (front ++ inner) back (by rw [heq, List.append_assoc])
  · intro h inner back heq
    rcases List.append_eq_append_iff.1 heq with ⟨more, rfl, htext⟩ | ⟨more, hfront, hback⟩
    · rw [endsEscaping_append he]
      exact h more back htext
    · -- The quote stands in the front text, unless that ends right before it.
      cases more with
      | nil =>
        rw [List.append_nil] at hfront
        rw [← hfront, ← List.append_nil front, endsEscaping_append he]
        exact h [] back hback.symm
      | cons d more =>
        obtain ⟨rfl, -⟩ := List.cons.inj hback
        exact hq inner more hfront

theorem isStringBody_append_iff {body : List Char} :
    IsStringBody (front ++ body) ↔ IsStringBody body := by
  constructor
  · rintro ⟨text, heq, hquotes, hends⟩
    rcases List.append_eq_append_iff.1 heq with ⟨more, rfl, hbody⟩ | ⟨more, hfront, hback⟩
    · rw [quotesEscaped_append_iff hq he] at hquotes
      rw [endsEscaping_append he] at hends
      exact ⟨more, hbody, hquotes, hends⟩
    · cases more with
      | nil => exact ⟨[], hback.symm, quotesEscaped_of_not_mem (by simp), by decide⟩
      | cons d more =>
        obtain ⟨rfl, -⟩ := List.cons.inj hback
        exact absurd (hq text more hfront) hends
  · rintro ⟨text, rfl, hquotes, hends⟩
    rw [← quotesEscaped_append_iff hq he] at hquotes
    rw [← endsEscaping_append he] at hends
    exact ⟨front ++ text, (List.append_assoc _ _ _).symm, hquotes, hends⟩

end Front

/-- A character that a string goes on after, together with the backslash that escapes it. -/
inductive IsPiece : List Char → Prop
  | escape (c : Char) : IsPiece ['\\', c]
  | char {c : Char} (hq : c ≠ '"') (hs : c ≠ '\\') : IsPiece [c]

theorem IsPiece.inside {piece : List Char} (h : IsPiece piece) : Inside piece := by
  cases h with
  | escape c => exact inside_escape c
  | char hq hs => exact inside_char hq hs

theorem IsPiece.quotesEscaped {piece : List Char} (h : IsPiece piece) : QuotesEscaped piece := by
  cases h with
  | escape c =>
    rintro front back heq
    cases front with
    | nil => exact absurd (List.cons.inj heq).1 (by decide)
    | cons d front =>
      obtain ⟨rfl, heq⟩ := List.cons.inj heq
      cases front with
      | nil => rfl
      | cons e front => simp at heq
  | char hq hs => exact quotesEscaped_of_not_mem (List.mem_singleton.not.2 (Ne.symm hq))

theorem IsPiece.not_endsEscaping {piece : List Char} (h : IsPiece piece) :
    ¬endsEscaping piece := by
  cases h with
  | escape c => simp [endsEscaping_eq, escapes]
  | char hq hs => simp [endsEscaping_eq, escapes, hs]

/-- A text is a string up to a quote, to a backslash without a character to escape or to its end. -/
theorem induction_on_pieces {motive : List Char → Prop} (nil : motive [])
    (quote : ∀ rest, motive ('"' :: rest)) (backslash : motive ['\\'])
    (piece : ∀ front rest, IsPiece front → motive rest → motive (front ++ rest))
    (text : List Char) : motive text := by
  induction text using stringBody.induct with
  | case1 => exact nil
  | case2 rest => exact quote rest
  | case3 => exact backslash
  | case4 c rest ih => exact piece ['\\', c] rest (.escape c) ih
  | case5 c rest hq hlast hescape ih =>
    refine piece [c] rest (.char hq fun hs => ?_) ih
    cases rest with
    | nil => exact hlast hs rfl
    | cons d rest => exact hescape d rest hs rfl

/-- A string has no end iff all its quotes are escaped. -/
theorem stringBody_eq_none_iff {text : List Char} :
    stringBody text = none ↔ QuotesEscaped text := by
  induction text using induction_on_pieces with
  | nil => exact iff_of_true rfl (quotesEscaped_of_not_mem (by simp))
  | quote rest => simp [not_quotesEscaped_quote]
  | backslash => exact iff_of_true rfl (quotesEscaped_of_not_mem (by simp))
  | piece front rest h ih =>
    rw [h.inside, Option.map_eq_none_iff, ih,
      quotesEscaped_append_iff h.quotesEscaped h.not_endsEscaping]

theorem IsStringBody.ne_nil {body : List Char} (h : IsStringBody body) : body ≠ [] := by
  obtain ⟨text, rfl, -⟩ := h
  simp

/-- A body does not end inside a text that a string goes on after. -/
theorem IsStringBody.append_ne {body more front : List Char} (h : IsStringBody body)
    (hq : QuotesEscaped front) : front ≠ body ++ more := by
  obtain ⟨text, rfl, -, hends⟩ := h
  intro heq
  exact hends (hq text more (by rw [heq, List.append_assoc]; rfl))

/-- A string ends at the first quote that is not escaped. -/
theorem stringBody_eq_some_iff {text body rest : List Char} :
    stringBody text = some (body, rest) ↔ text = body ++ rest ∧ IsStringBody body := by
  induction text using induction_on_pieces generalizing body with
  | nil =>
    refine iff_of_false (by simp [stringBody]) fun h => h.2.ne_nil ?_
    exact (List.append_eq_nil_iff.1 h.1.symm).1
  | quote tail =>
    simp only [stringBody_quote, Option.some.injEq, Prod.mk.injEq]
    constructor
    · rintro ⟨rfl, rfl⟩
      exact ⟨rfl, isStringBody_quote_iff.2 rfl⟩
    · rintro ⟨heq, hbody⟩
      cases body with
      | nil => exact absurd rfl hbody.ne_nil
      | cons c body =>
        obtain rfl := (List.cons.inj heq).1
        obtain rfl := isStringBody_quote_iff.1 hbody
        exact ⟨rfl, (List.cons.inj heq).2⟩
  | backslash =>
    refine iff_of_false (by simp [stringBody]) fun h => ?_
    exact h.2.append_ne (quotesEscaped_of_not_mem (by simp)) h.1
  | piece front tail h ih =>
    have hfront : ∀ inner, IsStringBody (front ++ inner) ↔ IsStringBody inner := fun _ =>
      isStringBody_append_iff h.quotesEscaped h.not_endsEscaping
    rw [h.inside, Option.map_eq_some_iff]
    constructor
    · rintro ⟨⟨inner, last⟩, hinner, heq⟩
      obtain ⟨rfl, rfl⟩ := Prod.mk.inj heq
      obtain ⟨rfl, hbody⟩ := ih.1 hinner
      exact ⟨(List.append_assoc _ _ _).symm, (hfront inner).2 hbody⟩
    · rintro ⟨heq, hbody⟩
      rcases List.append_eq_append_iff.1 heq with ⟨inner, rfl, htail⟩ | ⟨more, hmore, -⟩
      · exact ⟨(inner, rest), ih.2 ⟨htail, (hfront inner).1 hbody⟩, rfl⟩
      · exact absurd hmore (hbody.append_ne h.quotesEscaped)

/-! ### Kinds of lexemes -/

/-- What opens a string: a quote, or a quote directly behind `#`. -/
def IsStringOpening (opening : List Char) : Prop := opening = ['"'] ∨ opening = ['#', '"']

/-- The text starts with a lexeme, in front of `rest`, that spells the token. -/
inductive Lexeme : (lexeme rest : List Char) → Token → Prop
  | opening (b : Bracket) (rest : List Char) : Lexeme [b.opening] rest (.opening b)
  | closing (b : Bracket) (rest : List Char) : Lexeme [b.closing] rest (.closing b)
  /-- A comment takes all that is left of its line. -/
  | comment {body rest : List Char} (hn : '\n' ∉ body) (hr : ∀ c ∈ rest.head?, c = '\n') :
      Lexeme (';' :: body) rest (.comment (Text.trimEnd (';' :: body)))
  | string {opening body : List Char} (rest : List Char) (ho : IsStringOpening opening)
      (hb : IsStringBody body) : Lexeme (opening ++ body) rest (.atom (opening ++ body))
  /-- A word takes all that is no delimiter; a quote behind `#` opens a string. -/
  | word {text rest : List Char} (hw : IsWord text) (hr : ∀ c ∈ rest.head?, isDelimiter c)
      (hs : text = ['#'] → rest.head? ≠ some '"') : Lexeme text rest (.atom text)

/-- The text starts with a string that nothing closes. -/
def OpensString (text : List Char) : Prop :=
  ∃ opening body, text = opening ++ body ∧ IsStringOpening opening ∧ QuotesEscaped body

theorem isString_of_isStringBody {opening body : List Char} (ho : IsStringOpening opening)
    (hb : IsStringBody body) : IsString (opening ++ body) := by
  have hbody : stringBody body = some (body, []) :=
    stringBody_eq_some_iff.2 ⟨(List.append_nil body).symm, hb⟩
  rcases ho with rfl | rfl
  · exact ⟨body, .inl rfl, hbody⟩
  · exact ⟨body, .inr rfl, hbody⟩

theorem Lexeme.ne_nil {lexeme rest : List Char} {token : Token} (h : Lexeme lexeme rest token) :
    lexeme ≠ [] := by
  cases h with
  | string rest ho hb => exact List.append_ne_nil_of_right_ne_nil _ hb.ne_nil
  | word hw hr hs => exact hw.1
  | _ => simp

theorem Lexeme.first {lexeme rest : List Char} {token : Token} (h : Lexeme lexeme rest token) :
    Token.first (lexeme ++ rest) = some (lexeme, rest, token) := by
  cases h with
  | opening b => exact first_opening b rest
  | closing b => exact first_closing b rest
  | comment hn hr => exact first_comment hn hr
  | string _ ho hb => exact first_string (isString_of_isStringBody ho hb) rest
  | word hw hr hs => exact first_word hw hr hs

theorem OpensString.first {text : List Char} (h : OpensString text) : Token.first text = none := by
  obtain ⟨opening, body, rfl, ho, hb⟩ := h
  have hnone := stringBody_eq_none_iff.2 hb
  rcases ho with rfl | rfl <;> simp [Token.first, hnone]

theorem lexeme_or_opensString_of_opening {opening : List Char} (ho : IsStringOpening opening)
    (body : List Char) : (∃ lexeme rest token, opening ++ body = lexeme ++ rest ∧
      Lexeme lexeme rest token) ∨ OpensString (opening ++ body) := by
  cases hbody : stringBody body with
  | none => exact .inr ⟨opening, body, rfl, ho, stringBody_eq_none_iff.1 hbody⟩
  | some split =>
    obtain ⟨heq, hstring⟩ := stringBody_eq_some_iff.1
      (show stringBody body = some (split.1, split.2) from hbody)
    refine .inl ⟨opening ++ split.1, split.2, _, ?_, .string split.2 ho hstring⟩
    rw [List.append_assoc, ← heq]

theorem of_mem_head?_dropWhile {p : Char → Bool} {text : List Char} {c : Char}
    (h : c ∈ (text.dropWhile p).head?) : p c = false := by
  have hhead := List.head?_dropWhile_not p text
  rw [Option.mem_def.1 h] at hhead
  exact hhead

theorem lexeme_word {c : Char} (hc : isDelimiter c = false) {text : List Char}
    (hs : ¬(c = '#' ∧ text.head? = some '"')) :
    Lexeme (c :: text.takeWhile (!isDelimiter ·)) (text.dropWhile (!isDelimiter ·))
      (.atom (c :: text.takeWhile (!isDelimiter ·))) := by
  refine .word ⟨by simp, List.forall_mem_cons.2 ⟨hc, fun d hd => ?_⟩⟩ (fun d hd => ?_) ?_
  · simpa using List.mem_takeWhile_imp hd
  · simpa using of_mem_head?_dropWhile hd
  · intro hlone hquote
    obtain ⟨rfl, htake⟩ := List.cons.inj hlone
    -- Nothing of the text belongs to the word, so that the quote stands directly behind `#`.
    have htext := List.takeWhile_append_dropWhile (p := (!isDelimiter ·)) (l := text)
    rw [htake, List.nil_append] at htext
    rw [htext] at hquote
    exact hs ⟨rfl, hquote⟩

/-- Where there is no white space, there is a lexeme or a string without an end. -/
theorem lexeme_or_opensString {c : Char} (hb : Text.isBlank c = false) (text : List Char) :
    (∃ lexeme rest token, c :: text = lexeme ++ rest ∧ Lexeme lexeme rest token) ∨
      OpensString (c :: text) := by
  by_cases hq : c = '"'
  · subst hq
    exact lexeme_or_opensString_of_opening (.inl rfl) text
  by_cases hs : c = '#' ∧ text.head? = some '"'
  · obtain ⟨rfl, hhead⟩ := hs
    obtain ⟨body, rfl⟩ := List.head?_eq_some_iff.1 hhead
    exact lexeme_or_opensString_of_opening (.inr rfl) body
  by_cases hsemicolon : c = ';'
  · subst hsemicolon
    refine .inl ⟨';' :: text.takeWhile (· ≠ '\n'), text.dropWhile (· ≠ '\n'), _, by simp,
      .comment (fun hn => ?_) fun d hd => ?_⟩
    · simpa using List.mem_takeWhile_imp hn
    · simpa using of_mem_head?_dropWhile hd
  cases ho : Bracket.ofOpening? c with
  | some b =>
    obtain rfl := Bracket.eq_opening ho
    exact .inl ⟨[b.opening], text, _, rfl, .opening b text⟩
  | none =>
    cases hc : Bracket.ofClosing? c with
    | some b =>
      obtain rfl := Bracket.eq_closing hc
      exact .inl ⟨[b.closing], text, _, rfl, .closing b text⟩
    | none =>
      have hdelimiter : isDelimiter c = false :=
        isDelimiter_eq_false_iff.2 ⟨ho, hc, hq, hsemicolon, hb⟩
      exact .inl ⟨_, _, _, by simp, lexeme_word hdelimiter hs⟩

/-- The first lexeme of a text is the one that the rules for lexemes allow. -/
theorem first_eq_some_iff {c : Char} (hb : Text.isBlank c = false)
    {text lexeme rest : List Char} {token : Token} :
    first (c :: text) = some (lexeme, rest, token) ↔
      c :: text = lexeme ++ rest ∧ Lexeme lexeme rest token := by
  constructor
  · intro h
    rcases lexeme_or_opensString hb text with ⟨_, _, _, heq, hlexeme⟩ | hopen
    · rw [heq, hlexeme.first, Option.some.injEq, Prod.mk.injEq, Prod.mk.injEq] at h
      obtain ⟨rfl, rfl, rfl⟩ := h
      exact ⟨heq, hlexeme⟩
    · rw [hopen.first] at h
      cases h
  · rintro ⟨heq, hlexeme⟩
    rw [heq]
    exact hlexeme.first

/-- A text without a first lexeme starts with a string without an end. -/
theorem first_eq_none_iff {c : Char} (hb : Text.isBlank c = false) {text : List Char} :
    first (c :: text) = none ↔ OpensString (c :: text) := by
  refine ⟨fun h => ?_, OpensString.first⟩
  rcases lexeme_or_opensString hb text with ⟨lexeme, rest, token, heq, hlexeme⟩ | hopen
  · rw [heq, hlexeme.first] at h
    cases h
  · exact hopen

/-! ### Bytes -/

/-- The bytes of a text in UTF-8. -/
def utf8Bytes (text : List Char) : List UInt8 := text.flatMap String.utf8EncodeChar

/-- The number of bytes up to the quote that closes a string, itself included. A backslash takes
the byte behind it along, be that a character or the first part of one; `escaped` says whether this
is that byte. -/
def closingByte (escaped : Bool) : List UInt8 → Option Nat
  | [] => none
  | byte :: bytes =>
    if byte = 0x22 && !escaped then some 1
    else (closingByte (byte = 0x5c && !escaped) bytes).map (· + 1)

/-- The place just behind the string whose body starts at byte `start`. -/
def stringEnd (bytes : List UInt8) (start : Nat) : Option Nat :=
  (closingByte false (bytes.drop start)).map (start + ·)

theorem length_utf8Bytes (text : List Char) : (utf8Bytes text).length = Text.utf8Length text := by
  induction text with
  | nil => rfl
  | cons c text ih =>
    rw [utf8Bytes, List.flatMap_cons, List.length_append, String.length_utf8EncodeChar,
      Text.utf8Length_cons, ← ih, utf8Bytes]

/-- Whether a byte means nothing to the end of a string. -/
def IsPlainByte (byte : UInt8) : Prop := byte ≠ 0x22 ∧ byte ≠ 0x5c

theorem isPlainByte_ofNat {n : Nat} (h : 128 ≤ n) (hn : n < 256) : IsPlainByte (.ofNat n) := by
  constructor
  all_goals
    intro heq
    have heq := congrArg UInt8.toNat heq
    rw [UInt8.toNat_ofNat', Nat.mod_eq_of_lt hn] at heq
    subst heq
    revert h
    decide

/-- The first byte of a character is plain unless the character is a quote or a backslash, and the
other bytes are plain. -/
theorem utf8EncodeChar_eq (c : Char) : ∃ byte others, String.utf8EncodeChar c = byte :: others ∧
    (c ≠ '"' → c ≠ '\\' → IsPlainByte byte) ∧ ∀ other ∈ others, IsPlainByte other := by
  have hascii : ∀ n < 128, c.val.toNat ≤ 127 → c ≠ .ofNat n →
      UInt8.ofNat c.val.toNat ≠ .ofNat n := by
    intro n hn hc hne heq
    have heq := congrArg UInt8.toNat heq
    rw [UInt8.toNat_ofNat', UInt8.toNat_ofNat'] at heq
    have hcode : c.toNat = n := by
      show c.val.toNat = n
      omega
    rw [← hcode, Char.ofNat_toNat] at hne
    exact hne rfl
  unfold String.utf8EncodeChar
  dsimp only
  split_ifs with h₁ h₂ h₃
  · exact ⟨_, [], rfl, fun hq hs => ⟨hascii 0x22 (by decide) h₁ hq, hascii 0x5c (by decide) h₁ hs⟩,
      by simp⟩
  all_goals
    refine ⟨_, _, rfl, fun _ _ => isPlainByte_ofNat (by omega) (by omega), ?_⟩
    simp only [List.forall_mem_cons]
  · exact ⟨isPlainByte_ofNat (by omega) (by omega), by simp⟩
  · exact ⟨isPlainByte_ofNat (by omega) (by omega), isPlainByte_ofNat (by omega) (by omega),
      by simp⟩
  · exact ⟨isPlainByte_ofNat (by omega) (by omega), isPlainByte_ofNat (by omega) (by omega),
      isPlainByte_ofNat (by omega) (by omega), by simp⟩

/-- Plain bytes are passed over. -/
theorem closingByte_append {front : List UInt8} (h : ∀ byte ∈ front, IsPlainByte byte)
    (bytes : List UInt8) :
    closingByte false (front ++ bytes) = (closingByte false bytes).map (· + front.length) := by
  induction front with
  | nil => simp
  | cons byte front ih =>
    rw [List.forall_mem_cons] at h
    have hquote : ¬(byte = 0x22 && !false) := by simpa using h.1.1
    have hescape : (byte = 0x5c && !false) = false := by simpa using h.1.2
    rw [List.cons_append, closingByte, if_neg hquote, hescape, ih h.2, Option.map_map]
    rfl

/-- A backslash takes the first byte of a character along, and the others are plain. -/
theorem closingByte_escape (c : Char) (bytes : List UInt8) :
    closingByte false (utf8Bytes ['\\', c] ++ bytes) =
      (closingByte false bytes).map (· + Text.utf8Length ['\\', c]) := by
  obtain ⟨byte, others, hc, -, hothers⟩ := utf8EncodeChar_eq c
  have hbytes : utf8Bytes ['\\', c] = 0x5c :: byte :: others := by
    simp [utf8Bytes, hc, show String.utf8EncodeChar '\\' = [0x5c] from rfl]
  have hfirst : closingByte false (0x5c :: byte :: (others ++ bytes)) =
      (closingByte true (byte :: (others ++ bytes))).map (· + 1) := rfl
  have hsecond : closingByte true (byte :: (others ++ bytes)) =
      (closingByte false (others ++ bytes)).map (· + 1) := by
    rw [closingByte, Bool.not_true, Bool.and_false, Bool.and_false, if_neg Bool.false_ne_true]
  rw [← length_utf8Bytes, hbytes, List.cons_append, List.cons_append, hfirst, hsecond,
    closingByte_append hothers, Option.map_map, Option.map_map]
  rfl

theorem closingByte_piece {front : List Char} (h : IsPiece front) (bytes : List UInt8) :
    closingByte false (utf8Bytes front ++ bytes) =
      (closingByte false bytes).map (· + Text.utf8Length front) := by
  cases h with
  | escape c => exact closingByte_escape c bytes
  | @char c hq hs =>
    obtain ⟨byte, others, hc, hbyte, hothers⟩ := utf8EncodeChar_eq c
    have hbytes : utf8Bytes [c] = byte :: others := by simp [utf8Bytes, hc]
    rw [← length_utf8Bytes, hbytes]
    exact closingByte_append (List.forall_mem_cons.2 ⟨hbyte hq hs, hothers⟩) bytes

theorem utf8Bytes_append (front text : List Char) :
    utf8Bytes (front ++ text) = utf8Bytes front ++ utf8Bytes text :=
  List.flatMap_append

/-- Read byte by byte, a string ends where it ends character by character. -/
theorem closingByte_utf8Bytes (text : List Char) :
    closingByte false (utf8Bytes text) =
      (stringBody text).map fun split => Text.utf8Length split.1 := by
  induction text using induction_on_pieces with
  | nil | backslash => rfl
  | quote rest =>
    rw [utf8Bytes, List.flatMap_cons, show String.utf8EncodeChar '"' = [0x22] from rfl]
    rfl
  | piece front rest h ih =>
    rw [utf8Bytes_append, closingByte_piece h, ih, h.inside, Option.map_map, Option.map_map]
    congr 1
    funext split
    simp [Nat.add_comm]

/-- The end of a string is found between two characters, though it is searched for byte by byte. -/
theorem stringEnd_utf8Bytes (front text : List Char) :
    stringEnd (utf8Bytes (front ++ text)) (Text.utf8Length front) =
      (stringBody text).map fun split => Text.utf8Length (front ++ split.1) := by
  rw [stringEnd, utf8Bytes_append, ← length_utf8Bytes, List.drop_left, closingByte_utf8Bytes,
    Option.map_map]
  congr 1
  funext split
  simp [length_utf8Bytes]

end Token

end ScriptForms
