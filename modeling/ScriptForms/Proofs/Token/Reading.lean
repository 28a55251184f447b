import Mathlib.Data.List.DropRight
import ScriptForms.Token.Basic

/-!
# The tokens a text spells

`Token.scan` numbers the tokens of a text by their offsets. `Token.Spells` is what remains without
the offsets: a text spells a sequence of tokens if reading it lexeme by lexeme gives that sequence.

* `Token.Proper`: the tokens that a text can spell.
* `Token.Breaks`: the texts that end a word in front of them.
* `Token.spells_iff`: a text spells exactly the tokens that `Token.scan` finds in it.
* `Spells.word`, `Spells.comment`, ...: a token in front of a text, one rule for each kind.
-/

namespace ScriptForms

/-! ### Delimiters -/

namespace Bracket

@[simp] theorem ofClosing?_closing (b : Bracket) : ofClosing? b.closing = some b := by
  cases b <;> rfl

end Bracket

namespace Token

theorem isDelimiter_eq_false_iff {c : Char} :
    isDelimiter c = false ↔ Bracket.ofOpening? c = none ∧ Bracket.ofClosing? c = none ∧
      c ≠ '"' ∧ c ≠ ';' ∧ Text.isBlank c = false := by
  simp [isDelimiter, and_assoc]

/-! ### Strings -/

@[simp] theorem stringBody_quote (rest : List Char) :
    stringBody ('"' :: rest) = some (['"'], rest) := rfl

@[simp] theorem stringBody_escape (c : Char) (rest : List Char) :
    stringBody ('\\' :: c :: rest) =
      (stringBody rest).map fun (body, rest) => ('\\' :: c :: body, rest) := by
  simp only [stringBody]
  cases stringBody rest <;> rfl

theorem stringBody_char {c : Char} (hq : c ≠ '"') (hs : c ≠ '\\') (rest : List Char) :
    stringBody (c :: rest) = (stringBody rest).map fun (body, rest) => (c :: body, rest) := by
  rw [stringBody]
  · cases stringBody rest <;> rfl
  · exact hq
  · exact fun h _ => hs h
  · exact fun _ _ h _ => hs h

/-- A string body is cut off where it ends, and it is a body whatever follows it. -/
theorem stringBody_eq_some {text body rest : List Char} (h : stringBody text = some (body, rest)) :
    text = body ++ rest ∧ ∀ more, stringBody (body ++ more) = some (body, more) := by
  induction text using stringBody.induct generalizing body rest with
  | case1 => simp [stringBody] at h
  | case2 tail =>
    obtain ⟨rfl, rfl⟩ : ['"'] = body ∧ tail = rest := by simpa using h
    exact ⟨rfl, fun more => rfl⟩
  | case3 => simp [stringBody] at h
  | case4 c tail ih =>
    rw [stringBody_escape, Option.map_eq_some_iff] at h
    obtain ⟨⟨inner, last⟩, hinner, hresult⟩ := h
    obtain ⟨rfl, rfl⟩ : '\\' :: c :: inner = body ∧ last = rest := by simpa using hresult
    obtain ⟨htail, hmore⟩ := ih hinner
    refine ⟨by rw [htail]; rfl, fun more => ?_⟩
    rw [List.cons_append, List.cons_append, stringBody_escape, hmore more]
    rfl
  | case5 c tail hq hlast hescape ih =>
    have hs : c ≠ '\\' := by
      intro hc
      cases tail with
      | nil => exact hlast hc rfl
      | cons d tail => exact hescape d tail hc rfl
    rw [stringBody_char hq hs, Option.map_eq_some_iff] at h
    obtain ⟨⟨inner, last⟩, hinner, hresult⟩ := h
    obtain ⟨rfl, rfl⟩ : c :: inner = body ∧ last = rest := by simpa using hresult
    obtain ⟨htail, hmore⟩ := ih hinner
    refine ⟨by rw [htail]; rfl, fun more => ?_⟩
    rw [List.cons_append, stringBody_char hq hs, hmore more]
    rfl

/-! ### Lexemes -/

/-- A word: an atom that is no string. -/
def IsWord (text : List Char) : Prop := text ≠ [] ∧ ∀ c ∈ text, isDelimiter c = false

/-- A string, or a string directly after `#`. -/
def IsString (text : List Char) : Prop :=
  ∃ body, (text = '"' :: body ∨ text = '#' :: '"' :: body) ∧ stringBody body = some (body, [])

/-- The text of a comment without its trailing white space. -/
def IsComment (text : List Char) : Prop :=
  text.head? = some ';' ∧ '\n' ∉ text ∧ Text.trimEnd text = text

/-- The tokens that a text can spell. -/
def Proper : Token → Prop
  | .opening _ | .closing _ => True
  | .atom text => IsWord text ∨ IsString text
  | .comment text => IsComment text

/-- The text ends a word in front of it: it is empty or starts with white space or a closing
delimiter. -/
def Breaks (text : List Char) : Prop :=
  ∀ c ∈ text.head?, Text.isBlank c ∨ (Bracket.ofClosing? c).isSome

theorem Breaks.isDelimiter {text : List Char} (h : Breaks text) :
    ∀ c ∈ text.head?, Token.isDelimiter c ∧ c ≠ '"' := by
  intro c hc
  have hc := h c hc
  refine ⟨by rcases hc with hc | hc <;> simp [Token.isDelimiter, hc], ?_⟩
  rintro rfl
  revert hc
  decide

theorem breaks_nil : Breaks [] := by simp [Breaks]

theorem breaks_of_isBlank {c : Char} (h : Text.isBlank c) (rest : List Char) :
    Breaks (c :: rest) := by
  simp [Breaks, h]

theorem breaks_closing (b : Bracket) (rest : List Char) : Breaks (b.closing :: rest) := by
  simp [Breaks]

/-- A word ends where a delimiter follows. -/
theorem takeWhile_word {text rest : List Char} (h : ∀ c ∈ text, isDelimiter c = false)
    (hr : ∀ c ∈ rest.head?, isDelimiter c) : (text ++ rest).takeWhile (!isDelimiter ·) = text ∧
      (text ++ rest).dropWhile (!isDelimiter ·) = rest := by
  have hword : ∀ c ∈ text, (!isDelimiter c) = true := by simpa using h
  rw [List.takeWhile_append_of_pos hword, List.dropWhile_append_of_pos hword]
  cases rest with
  | nil => simp
  | cons c rest =>
    have hc := hr c rfl
    simp [hc]

theorem first_word {text rest : List Char} (h : IsWord text) (hr : ∀ c ∈ rest.head?, isDelimiter c)
    (hs : text = ['#'] → rest.head? ≠ some '"') :
    first (text ++ rest) = some (text, rest, .atom text) := by
  obtain ⟨hne, hd⟩ := h
  cases text with
  | nil => exact absurd rfl hne
  | cons c text =>
    rw [List.forall_mem_cons] at hd
    obtain ⟨ho, hc, hq, hsemicolon, -⟩ := isDelimiter_eq_false_iff.1 hd.1
    obtain ⟨htake, hdrop⟩ := takeWhile_word hd.2 hr
    rw [List.cons_append, first]
    · simp only [ho, hc, htake, hdrop]
    · exact hq
    · -- A lone `#` would read a quote after it as its own.
      intro more hhash hmore
      cases text with
      | nil =>
        have hrest : rest = '"' :: more := hmore
        exact hs (by rw [hhash]) (by rw [hrest]; rfl)
      | cons d text =>
        have hquote : d = '"' := (List.cons.inj hmore).1
        exact (isDelimiter_eq_false_iff.1 (hd.2 d (by simp))).2.2.1 hquote
    · exact hsemicolon

theorem first_string {text : List Char} (h : IsString text) (rest : List Char) :
    first (text ++ rest) = some (text, rest, .atom text) := by
  obtain ⟨body, htext, hbody⟩ := h
  have hmore := (stringBody_eq_some hbody).2 rest
  rcases htext with rfl | rfl
  · simp [first, hmore]
  · simp [first, hmore]

theorem first_opening (b : Bracket) (rest : List Char) :
    first (b.opening :: rest) = some ([b.opening], rest, .opening b) := by
  cases b <;> rfl

theorem first_closing (b : Bracket) (rest : List Char) :
    first (b.closing :: rest) = some ([b.closing], rest, .closing b) := by
  cases b <;> rfl

/-- A comment ends where its line ends. -/
theorem first_comment {body rest : List Char} (h : '\n' ∉ body)
    (hr : ∀ c ∈ rest.head?, c = '\n') : first (';' :: (body ++ rest)) =
      some (';' :: body, rest, .comment (Text.trimEnd (';' :: body))) := by
  have hb : ∀ c ∈ body, (decide (c ≠ '\n')) = true := by
    intro c hc
    exact decide_eq_true fun hn => h (hn ▸ hc)
  rw [first, List.takeWhile_append_of_pos hb, List.dropWhile_append_of_pos hb]
  cases rest with
  | nil => simp
  | cons c rest =>
    obtain rfl := hr c rfl
    simp

/-- The trailing white space of a comment is none of its text. -/
theorem isComment_trimEnd {body : List Char} (h : '\n' ∉ body) :
    IsComment (Text.trimEnd (';' :: body)) := by
  have hpre : Text.trimEnd (';' :: body) <+: ';' :: body := List.rdropWhile_prefix _ _
  have hne : Text.trimEnd (';' :: body) ≠ [] := by
    intro hnil
    have hblank : Text.isBlank ';' := List.rdropWhile_eq_nil_iff.1 hnil ';' (by simp)
    revert hblank
    decide
  refine ⟨?_, fun hn => ?_, List.rdropWhile_idempotent _ _⟩
  · obtain ⟨c, text, htext⟩ := List.exists_cons_of_ne_nil hne
    rw [htext] at hpre ⊢
    rw [(List.cons_prefix_cons.1 hpre).1]
    rfl
  · rcases List.mem_cons.1 (hpre.subset hn) with hn | hn
    · revert hn
      decide
    · exact h hn

/-- A lexeme is a part of the text that is not empty, and its token is proper. -/
theorem first_eq_some {c : Char} {rest lexeme tail : List Char} {token : Token}
    (hb : Text.isBlank c = false) (h : first (c :: rest) = some (lexeme, tail, token)) :
    c :: rest = lexeme ++ tail ∧ lexeme ≠ [] ∧ token.Proper := by
  unfold first at h
  split at h
  · cases ‹_›
  · rename_i heq
    obtain ⟨rfl, rfl⟩ := List.cons.inj heq
    simp only [Option.bind_eq_bind, Option.bind_eq_some_iff] at h
    obtain ⟨⟨body, last⟩, hbody, hresult⟩ := h
    obtain ⟨rfl, rfl, rfl⟩ : '"' :: body = lexeme ∧ last = tail ∧ .atom ('"' :: body) = token := by
      simpa using hresult
    obtain ⟨hsplit, hmore⟩ := stringBody_eq_some hbody
    refine ⟨by rw [hsplit]; rfl, by simp, .inr ⟨body, .inl rfl, ?_⟩⟩
    simpa using hmore []
  · rename_i heq
    obtain ⟨rfl, rfl⟩ := List.cons.inj heq
    simp only [Option.bind_eq_bind, Option.bind_eq_some_iff] at h
    obtain ⟨⟨body, last⟩, hbody, hresult⟩ := h
    obtain ⟨rfl, rfl, rfl⟩ : '#' :: '"' :: body = lexeme ∧ last = tail ∧
        .atom ('#' :: '"' :: body) = token := by
      simpa using hresult
    obtain ⟨hsplit, hmore⟩ := stringBody_eq_some hbody
    refine ⟨by rw [hsplit]; rfl, by simp, .inr ⟨body, .inr rfl, ?_⟩⟩
    simpa using hmore []
  · rename_i heq
    obtain ⟨rfl, rfl⟩ := List.cons.inj heq
    simp only [Option.some.injEq, Prod.mk.injEq] at h
    obtain ⟨rfl, rfl, rfl⟩ := h
    refine ⟨by simp, by simp, isComment_trimEnd fun hn => ?_⟩
    simpa using List.mem_takeWhile_imp hn
  · rename_i hq _ hs heq
    obtain ⟨rfl, rfl⟩ := List.cons.inj heq
    split at h
    · simp only [Option.some.injEq, Prod.mk.injEq] at h
      obtain ⟨rfl, rfl, rfl⟩ := h
      exact ⟨rfl, by simp, trivial⟩
    · simp only [Option.some.injEq, Prod.mk.injEq] at h
      obtain ⟨rfl, rfl, rfl⟩ := h
      exact ⟨rfl, by simp, trivial⟩
    · rename_i ho hc
      simp only [Option.some.injEq, Prod.mk.injEq] at h
      obtain ⟨rfl, rfl, rfl⟩ := h
      refine ⟨by simp, by simp, .inl ⟨by simp, List.forall_mem_cons.2 ⟨?_, fun d hd => ?_⟩⟩⟩
      · exact isDelimiter_eq_false_iff.2 ⟨ho, hc, hq, hs, hb⟩
      · simpa using List.mem_takeWhile_imp hd

/-! ### Spelling -/

/-- The text, read lexeme by lexeme, gives the tokens. -/
inductive Spells : List Char → List Token → Prop
  | nil : Spells [] []
  | blank {c : Char} {rest : List Char} {tokens : List Token} (hb : Text.isBlank c)
      (h : Spells rest tokens) : Spells (c :: rest) tokens
  | token {c : Char} {rest lexeme tail : List Char} {token : Token} {tokens : List Token}
      (hb : Text.isBlank c = false) (hf : first (c :: rest) = some (lexeme, tail, token))
      (h : Spells tail tokens) : Spells (c :: rest) (token :: tokens)

theorem Spells.proper {text : List Char} {tokens : List Token} (h : Spells text tokens) :
    ∀ token ∈ tokens, token.Proper := by
  induction h with
  | nil => simp
  | blank hb h ih => exact ih
  | token hb hf h ih => exact List.forall_mem_cons.2 ⟨(first_eq_some hb hf).2.2, ih⟩

/-- What is found in a text that is scanned to its end is spelled by the text. -/
theorem spells_of_scanFrom {n offset : Nat} {text : List Char} {placed : List (Nat × Token)}
    (hn : text.length ≤ n) (h : scanFrom n offset text = .ok placed) :
    Spells text (placed.map Prod.snd) := by
  induction n generalizing offset text placed with
  | zero =>
    obtain rfl : text = [] := List.length_eq_zero_iff.1 (by omega)
    cases h
    exact .nil
  | succ n ih =>
    cases text with
    | nil =>
      cases h
      exact .nil
    | cons c rest =>
      rw [List.length_cons] at hn
      rw [scanFrom] at h
      split at h
      · exact .blank ‹_› (ih (by omega) h)
      · rename_i hb
        rw [Bool.not_eq_true] at hb
        split at h
        · cases h
        · rename_i lexeme tail token hf
          -- A lexeme is not empty, so one unit of the bound pays for all of it.
          obtain ⟨hsplit, hne, -⟩ := first_eq_some hb hf
          have hlength := congrArg List.length hsplit
          have hpos := List.length_pos_iff.2 hne
          rw [List.length_cons, List.length_append] at hlength
          cases hs : scanFrom n (offset + Text.utf8Length lexeme) tail with
          | error e =>
            rw [hs] at h
            cases h
          | ok later =>
            rw [hs] at h
            cases h
            exact .token hb hf (ih (by omega) hs)

/-- What a text spells is found in it, from every offset on. -/
theorem Spells.scanFrom {text : List Char} {tokens : List Token} (h : Spells text tokens) {n : Nat}
    (hn : text.length ≤ n) (offset : Nat) :
    ∃ placed, Token.scanFrom n offset text = .ok placed ∧ placed.map Prod.snd = tokens := by
  induction h generalizing n offset with
  | nil =>
    refine ⟨[], ?_, rfl⟩
    cases n <;> rfl
  | blank hb h ih =>
    rw [List.length_cons] at hn
    obtain ⟨m, rfl⟩ : ∃ m, n = m + 1 := Nat.exists_eq_succ_of_ne_zero (by omega)
    rw [Token.scanFrom, if_pos hb]
    exact ih (by omega) _
  | @token c rest lexeme tail token tokens hb hf h ih =>
    rw [List.length_cons] at hn
    obtain ⟨m, rfl⟩ : ∃ m, n = m + 1 := Nat.exists_eq_succ_of_ne_zero (by omega)
    obtain ⟨hsplit, hne, -⟩ := first_eq_some hb hf
    have hlength := congrArg List.length hsplit
    have hpos := List.length_pos_iff.2 hne
    rw [List.length_cons, List.length_append] at hlength
    obtain ⟨placed, hplaced, hmap⟩ := @ih m (by omega) (offset + Text.utf8Length lexeme)
    refine ⟨(offset, token) :: placed, ?_, by rw [List.map_cons, hmap]⟩
    rw [Token.scanFrom, if_neg (by rw [hb]; decide), hf]
    dsimp only
    rw [hplaced]
    rfl

/-- A text spells exactly the tokens that are found in it. -/
theorem spells_iff {text : List Char} {tokens : List Token} :
    Spells text tokens ↔ ∃ placed, scan text = .ok placed ∧ placed.map Prod.snd = tokens := by
  constructor
  · intro h
    exact h.scanFrom (Nat.le_refl _) 0
  · rintro ⟨placed, hscan, rfl⟩
    exact spells_of_scanFrom (Nat.le_refl _) hscan

/-! ### Tokens in front of a text -/

variable {rest : List Char} {tokens : List Token}

theorem Spells.blanks {gap : List Char} (hb : ∀ c ∈ gap, Text.isBlank c) (h : Spells rest tokens) :
    Spells (gap ++ rest) tokens := by
  induction gap with
  | nil => exact h
  | cons c gap ih =>
    rw [List.forall_mem_cons] at hb
    exact .blank hb.1 (ih hb.2)

theorem Spells.opening (b : Bracket) (h : Spells rest tokens) :
    Spells (b.opening :: rest) (.opening b :: tokens) :=
  .token (by cases b <;> rfl) (first_opening b rest) h

theorem Spells.closing (b : Bracket) (h : Spells rest tokens) :
    Spells (b.closing :: rest) (.closing b :: tokens) :=
  .token (by cases b <;> rfl) (first_closing b rest) h

theorem Spells.word {text : List Char} (hw : IsWord text) (hr : Breaks rest)
    (h : Spells rest tokens) : Spells (text ++ rest) (.atom text :: tokens) := by
  have hf := first_word hw (fun c hc => (hr.isDelimiter c hc).1)
    fun _ hquote => (hr.isDelimiter '"' hquote).2 rfl
  obtain ⟨hne, hd⟩ := hw
  obtain ⟨c, more, rfl⟩ := List.exists_cons_of_ne_nil hne
  exact .token (isDelimiter_eq_false_iff.1 (hd c (by simp))).2.2.2.2 hf h

theorem Spells.string {text : List Char} (hs : IsString text) (h : Spells rest tokens) :
    Spells (text ++ rest) (.atom text :: tokens) := by
  have hf := first_string hs rest
  obtain ⟨body, rfl | rfl, -⟩ := hs
  · exact .token rfl hf h
  · exact .token rfl hf h

theorem Spells.comment {body : List Char} (hn : '\n' ∉ body) (h : Spells rest tokens) :
    Spells (';' :: (body ++ '\n' :: rest)) (.comment (Text.trimEnd (';' :: body)) :: tokens) :=
  .token rfl (first_comment hn (by simp)) (.blank rfl h)

end Token

end ScriptForms
