import ScriptForms.Proofs.Token.Layout
import ScriptForms.Proofs.Token.Lexeme

/-!
# What a layout fails for

A text is read from left to right. Reading stops at the first string without an end; otherwise the
delimiters decide. The fault is the first closing delimiter that does not close the innermost open
one, or else the innermost delimiter that is open at the end.

* `Token.Reads`: reading from left to right, lexeme by lexeme.
* `Token.scan_eq_ok_iff`, `Token.scan_eq_error_iff`: what a scan finds and where it stops.
* `Token.Nested`, `Token.Opens`: properly nested tokens, and the delimiters that some tokens leave
  open.
* `Layout.apply_compact_diagnosis`: the outcome of the compact layout of every text.
-/

namespace ScriptForms

open Token

/-! ### Reading -/

namespace Token

/-- Reading from left to right, a text has been read up to `rest`, and the tokens have been found,
each at its offset. -/
inductive Reads : (front : List Char) → List (Nat × Token) → (rest : List Char) → Prop
  | start (text : List Char) : Reads [] [] text
  | blank {front : List Char} {placed : List (Nat × Token)} {c : Char} {rest : List Char}
      (h : Reads front placed (c :: rest)) (hb : Text.isBlank c) : Reads (front ++ [c]) placed rest
  | token {front : List Char} {placed : List (Nat × Token)} {lexeme rest : List Char}
      {token : Token} (h : Reads front placed (lexeme ++ rest)) (hl : Lexeme lexeme rest token) :
      Reads (front ++ lexeme) (placed ++ [(Text.utf8Length front, token)]) rest

/-- Reading a text stops at an offset, in front of a string without an end. -/
def StopsAt (text : List Char) (offset : Nat) : Prop :=
  ∃ front placed rest, text = front ++ rest ∧ Reads front placed rest ∧ OpensString rest ∧
    offset = Text.utf8Length front

theorem Lexeme.exists_head {lexeme rest : List Char} {token : Token}
    (h : Lexeme lexeme rest token) : ∃ c more, lexeme = c :: more ∧ Text.isBlank c = false := by
  cases h with
  | opening b => exact ⟨_, _, rfl, by cases b <;> rfl⟩
  | closing b => exact ⟨_, _, rfl, by cases b <;> rfl⟩
  | comment hn hr => exact ⟨_, _, rfl, rfl⟩
  | string _ ho hb => rcases ho with rfl | rfl <;> exact ⟨_, _, rfl, rfl⟩
  | word hw hr hs =>
    obtain ⟨c, more, rfl⟩ := List.exists_cons_of_ne_nil hw.1
    exact ⟨c, more, rfl, (isDelimiter_eq_false_iff.1 (hw.2 c (by simp))).2.2.2.2⟩

theorem OpensString.exists_head {text : List Char} (h : OpensString text) :
    ∃ c more, text = c :: more ∧ Text.isBlank c = false := by
  obtain ⟨opening, body, rfl, rfl | rfl, -⟩ := h <;> exact ⟨_, _, rfl, rfl⟩

theorem scanFrom_nil (n offset : Nat) : scanFrom n offset [] = .ok [] := by
  cases n <;> rfl

/-- A scan that may look at all characters of a text does not depend on how many it may look at. -/
theorem scanFrom_eq_scanFrom {n m : Nat} {text : List Char} (hn : text.length ≤ n)
    (hm : text.length ≤ m) (offset : Nat) : scanFrom n offset text = scanFrom m offset text := by
  induction n generalizing m text offset with
  | zero =>
    obtain rfl : text = [] := List.length_eq_zero_iff.1 (by omega)
    rw [scanFrom_nil, scanFrom_nil]
  | succ n ih =>
    cases text with
    | nil => rw [scanFrom_nil, scanFrom_nil]
    | cons c rest =>
      rw [List.length_cons] at hn hm
      obtain ⟨m, rfl⟩ : ∃ k, m = k + 1 := Nat.exists_eq_succ_of_ne_zero (by omega)
      rw [scanFrom, scanFrom]
      by_cases hb : Text.isBlank c
      · rw [if_pos hb, if_pos hb, ih (m := m) (by omega) (by omega)]
      · rw [if_neg hb, if_neg hb]
        cases hf : first (c :: rest) with
        | none => rfl
        | some found =>
          obtain ⟨lexeme, tail, token⟩ := found
          obtain ⟨hsplit, hne, -⟩ := first_eq_some (Bool.not_eq_true _ ▸ hb) hf
          have hlength := congrArg List.length hsplit
          have hpos := List.length_pos_iff.2 hne
          rw [List.length_cons, List.length_append] at hlength
          dsimp only
          rw [ih (m := m) (by omega) (by omega)]

section Step

variable {c : Char} {lexeme rest text : List Char} {token : Token} (offset : Nat)

theorem scanFrom_blank (hb : Text.isBlank c) :
    scanFrom (c :: rest).length offset (c :: rest) =
      scanFrom rest.length (offset + c.utf8Size) rest := by
  rw [List.length_cons, scanFrom, if_pos hb]

theorem scanFrom_lexeme (h : Lexeme lexeme rest token) :
    scanFrom (lexeme ++ rest).length offset (lexeme ++ rest) =
      ((offset, token) :: ·) <$> scanFrom rest.length (offset + Text.utf8Length lexeme) rest := by
  have hf := h.first
  obtain ⟨c, more, rfl, hb⟩ := h.exists_head
  rw [List.cons_append] at hf
  rw [List.cons_append, List.length_cons, scanFrom, if_neg (by rw [hb]; exact Bool.false_ne_true),
    hf]
  dsimp only
  rw [scanFrom_eq_scanFrom (m := rest.length) (by simp) (Nat.le_refl _)]
  rfl

theorem scanFrom_opensString (h : OpensString text) :
    scanFrom text.length offset text = .error (.unterminatedString offset) := by
  have hf := h.first
  obtain ⟨c, more, rfl, hb⟩ := h.exists_head
  rw [List.length_cons, scanFrom, if_neg (by rw [hb]; exact Bool.false_ne_true), hf]

end Step

/-- What has been read is what a scan finds first. -/
theorem Reads.scan {front rest : List Char} {placed : List (Nat × Token)}
    (h : Reads front placed rest) : Token.scan (front ++ rest) =
      (placed ++ ·) <$> scanFrom rest.length (Text.utf8Length front) rest := by
  induction h with
  | start text => simp [Token.scan]
  | @blank front placed c rest h hb ih =>
    rw [scanFrom_blank _ hb] at ih
    simpa using ih
  | @token front placed lexeme rest token h hl ih =>
    rw [scanFrom_lexeme _ hl] at ih
    simpa [Function.comp_def] using ih

/-- Reading comes to the end of a text or stops in front of a string without an end. -/
theorem Reads.ends_or_stops {front rest : List Char} {placed : List (Nat × Token)}
    (h : Reads front placed rest) :
    (∃ all, Reads (front ++ rest) all []) ∨ ∃ offset, StopsAt (front ++ rest) offset := by
  induction hn : rest.length using Nat.strong_induction_on generalizing front placed rest with
  | h n ih =>
    cases rest with
    | nil => exact .inl ⟨placed, by rwa [List.append_nil]⟩
    | cons c rest =>
      by_cases hb : Text.isBlank c
      · have hlater := ih rest.length (by rw [← hn]; exact Nat.lt_succ_self _) (.blank h hb) rfl
        rwa [List.append_assoc] at hlater
      · rcases lexeme_or_opensString (Bool.not_eq_true _ ▸ hb) rest with
          ⟨lexeme, tail, token, heq, hl⟩ | hopen
        · rw [heq] at h hn ⊢
          have hpos := List.length_pos_iff.2 hl.ne_nil
          have hlater := ih tail.length (by rw [← hn, List.length_append]; omega) (.token h hl) rfl
          rwa [List.append_assoc] at hlater
        · exact .inr ⟨_, front, placed, c :: rest, rfl, h, hopen, rfl⟩

theorem Reads.scan_eq_ok {text : List Char} {placed : List (Nat × Token)}
    (h : Reads text placed []) : Token.scan text = .ok placed := by
  simpa [scanFrom_nil] using h.scan

theorem StopsAt.scan_eq_error {text : List Char} {offset : Nat} (h : StopsAt text offset) :
    Token.scan text = .error (.unterminatedString offset) := by
  obtain ⟨front, placed, rest, rfl, hreads, hopen, rfl⟩ := h
  rw [hreads.scan, scanFrom_opensString _ hopen]
  rfl

theorem ends_or_stops (text : List Char) :
    (∃ placed, Reads text placed []) ∨ ∃ offset, StopsAt text offset :=
  (Reads.start text).ends_or_stops

/-- A scan finds the tokens that are found by reading the text to its end. -/
theorem scan_eq_ok_iff {text : List Char} {placed : List (Nat × Token)} :
    scan text = .ok placed ↔ Reads text placed [] := by
  refine ⟨fun h => ?_, Reads.scan_eq_ok⟩
  rcases ends_or_stops text with ⟨all, hall⟩ | ⟨offset, hstops⟩
  · rw [hall.scan_eq_ok] at h
    exact Except.ok.inj h ▸ hall
  · rw [hstops.scan_eq_error] at h
    cases h

/-- A scan fails for the string without an end that reading stops at. -/
theorem scan_eq_error_iff {text : List Char} {error : LayoutError} :
    scan text = .error error ↔
      ∃ offset, StopsAt text offset ∧ error = .unterminatedString offset := by
  constructor
  · intro h
    rcases ends_or_stops text with ⟨all, hall⟩ | ⟨offset, hstops⟩
    · rw [hall.scan_eq_ok] at h
      cases h
    · rw [hstops.scan_eq_error] at h
      exact ⟨offset, hstops, (Except.error.inj h).symm⟩
  · rintro ⟨offset, hstops, rfl⟩
    exact hstops.scan_eq_error

/-! ### Delimiters -/

/-- Whether a token opens and closes nothing. -/
def isPlain : Token → Bool
  | .atom _ | .comment _ => true
  | _ => false

/-- The delimiters of the tokens are properly nested. -/
inductive Nested : List Token → Prop
  | nil : Nested []
  | plain {token : Token} {tokens : List Token} (hp : token.isPlain) (h : Nested tokens) :
      Nested (token :: tokens)
  | group (b : Bracket) {inner rest : List Token} (hi : Nested inner) (hr : Nested rest) :
      Nested (.opening b :: (inner ++ .closing b :: rest))

/-- Every closing delimiter of the tokens closes the innermost open one, and these delimiters are
open at their end, innermost first. -/
inductive Opens : List (Nat × Token) → List (Bracket × Nat) → Prop
  | nothing {placed : List (Nat × Token)} (h : Nested (placed.map Prod.snd)) : Opens placed []
  | opening {front inner : List (Nat × Token)} {stack : List (Bracket × Nat)}
      (h : Opens front stack) (b : Bracket) (offset : Nat) (hi : Nested (inner.map Prod.snd)) :
      Opens (front ++ (offset, .opening b) :: inner) ((b, offset) :: stack)

/-- The tokens have a closing delimiter at the offset that does not close the innermost open one,
and all before it do; or all of them do, and the delimiter at the offset is the innermost one that
is open at the end. -/
def FailsAt (placed : List (Nat × Token)) (offset : Nat) : Prop :=
  (∃ front b back stack, placed = front ++ (offset, .closing b) :: back ∧ Opens front stack ∧
    stack.head?.map Prod.fst ≠ some b) ∨ ∃ b stack, Opens placed ((b, offset) :: stack)

theorem Nested.append {first second : List Token} (h : Nested first) (hs : Nested second) :
    Nested (first ++ second) := by
  induction h with
  | nil => exact hs
  | plain hp h ih => exact .plain hp ih
  | group b hi hr ihi ihr =>
    rw [List.cons_append, List.append_assoc, List.cons_append]
    exact .group b hi ihr

theorem nested_plain {token : Token} (hp : token.isPlain) : Nested [token] := .plain hp .nil

/-- Nested tokens leave the open delimiters as they are. -/
theorem Opens.append {placed inner : List (Nat × Token)} {stack : List (Bracket × Nat)}
    (h : Opens placed stack) (hi : Nested (inner.map Prod.snd)) :
    Opens (placed ++ inner) stack := by
  cases h with
  | nothing h => exact .nothing (by rw [List.map_append]; exact h.append hi)
  | opening h b offset hown =>
    rw [List.append_assoc, List.cons_append]
    exact .opening h b offset (by rw [List.map_append]; exact hown.append hi)

theorem Opens.closing {placed : List (Nat × Token)} {b : Bracket} {offset : Nat}
    {stack : List (Bracket × Nat)} (h : Opens placed ((b, offset) :: stack)) (own : Nat) :
    Opens (placed ++ [(own, .closing b)]) stack := by
  cases h with
  | @opening front inner _ h _ _ hi =>
    have hgroup : Nested (.opening b :: (inner.map Prod.snd ++ [.closing b])) := .group b hi .nil
    rw [List.append_assoc, List.cons_append]
    exact h.append (by simpa using hgroup)

/-- The delimiters of tokens are nested, or one of them fails. -/
theorem Opens.nested_or_failsAt {front : List (Nat × Token)} {stack : List (Bracket × Nat)}
    (h : Opens front stack) (rest : List (Nat × Token)) :
    Nested ((front ++ rest).map Prod.snd) ∨ ∃ offset, FailsAt (front ++ rest) offset := by
  induction rest generalizing front stack with
  | nil =>
    rw [List.append_nil]
    cases h with
    | nothing h => exact .inl h
    | opening h b offset hi => exact .inr ⟨offset, .inr ⟨b, _, .opening h b offset hi⟩⟩
  | cons placed rest ih =>
    obtain ⟨offset, token⟩ := placed
    rw [List.append_cons]
    cases token with
    | atom text | comment text => exact ih (h.append (nested_plain rfl))
    | opening b => exact ih (.opening h b offset .nil)
    | closing b =>
      by_cases hb : stack.head?.map Prod.fst = some b
      · cases stack with
        | nil => cases hb
        | cons top stack =>
          obtain ⟨own, start⟩ := top
          obtain rfl : own = b := Option.some.inj hb
          exact ih (h.closing offset)
      · refine .inr ⟨offset, .inl ⟨front, b, rest, stack, ?_, h, hb⟩⟩
        rw [List.append_assoc, List.singleton_append]

/-! ### Boundaries -/

/-- What has been found stands in the text, between two of its characters. -/
theorem Reads.slice {front rest : List Char} {placed : List (Nat × Token)}
    (h : Reads front placed rest) {offset : Nat} {token : Token} (hm : (offset, token) ∈ placed) :
    ∃ before lexeme after, front ++ rest = before ++ lexeme ++ after ∧
      offset = Text.utf8Length before ∧ Lexeme lexeme after token := by
  induction h with
  | start text => cases hm
  | blank h hb ih =>
    rw [List.append_assoc]
    exact ih hm
  | @token front placed lexeme rest own h hl ih =>
    rcases List.mem_append.1 hm with hm | hm
    · rw [List.append_assoc]
      exact ih hm
    · obtain ⟨rfl, rfl⟩ := Prod.mk.inj (List.mem_singleton.1 hm)
      exact ⟨front, lexeme, rest, rfl, rfl, hl⟩

/-- Wherever reading has come, what has been found stands between two characters of the text, and
so does the end of a string that starts there, though it is searched for byte by byte. -/
def CutsAtCharacters (text : List Char) : Prop :=
  ∀ front placed rest, text = front ++ rest → Reads front placed rest →
    (∀ offset token, (offset, token) ∈ placed → ∃ before lexeme after,
      text = before ++ lexeme ++ after ∧ offset = Text.utf8Length before ∧
        Lexeme lexeme after token) ∧
    ∀ opening body, rest = opening ++ body → IsStringOpening opening →
      QuotesEscaped body ∧
        stringEnd (utf8Bytes text) (Text.utf8Length (front ++ opening)) = none ∨
      ∃ inner after, body = inner ++ after ∧ IsStringBody inner ∧
        stringEnd (utf8Bytes text) (Text.utf8Length (front ++ opening)) =
          some (Text.utf8Length (front ++ opening ++ inner))

theorem cutsAtCharacters (text : List Char) : CutsAtCharacters text := by
  rintro front placed rest rfl hreads
  refine ⟨fun _ _ hm => hreads.slice hm, ?_⟩
  rintro opening body rfl -
  rw [← List.append_assoc, stringEnd_utf8Bytes]
  cases hbody : stringBody body with
  | none => exact .inl ⟨stringBody_eq_none_iff.1 hbody, rfl⟩
  | some split =>
    obtain ⟨inner, after⟩ := split
    obtain ⟨heq, hinner⟩ := stringBody_eq_some_iff.1 hbody
    exact .inr ⟨inner, after, heq, hinner, rfl⟩

end Token

/-! ### Layouts -/

namespace LayoutState

variable {state : LayoutState} {b : Bracket} {stack : List (Bracket × Nat)}

theorem exists_add_of_isPlain {token : Token} (hp : token.isPlain) (state : LayoutState)
    (offset : Nat) :
    ∃ text next, state.add offset token = .ok (text, next) ∧ next.stack = state.stack := by
  cases token with
  | atom text | comment text => exact ⟨_, _, rfl, rfl⟩
  | opening b | closing b => cases hp

theorem add_closing_eq_error (h : state.stack.head?.map Prod.fst ≠ some b) (offset : Nat) :
    state.add offset (.closing b) = .error (.unbalanced offset) := by
  unfold add
  cases hs : state.stack with
  | nil => rfl
  | cons top stack =>
    rw [hs] at h
    exact if_neg fun hb => h (congrArg some hb)

theorem layOut_cons_eq_error {offset : Nat} {token : Token} {fault : LayoutError}
    (h : state.add offset token = .error fault) (rest : List (Nat × Token)) :
    state.layOut ((offset, token) :: rest) = .error fault := by
  rw [layOut, h]
  rfl

theorem layOut_nil_eq_error {start : Nat} (h : state.stack = (b, start) :: stack) :
    state.layOut [] = .error (.unbalanced start) := by
  rw [layOut, h]

theorem exists_layOut_nil (h : state.stack = []) : ∃ text, state.layOut [] = .ok text := by
  rw [layOut, h]
  exact ⟨_, rfl⟩

/-- Nested tokens can be laid out anywhere, and leave the open delimiters as they are. -/
theorem exists_adds_of_nested {tokens : List Token} (h : Nested tokens) (state : LayoutState)
    {placed : List (Nat × Token)} (hm : placed.map Prod.snd = tokens) :
    ∃ text next, state.Adds placed text next ∧ next.stack = state.stack := by
  induction h generalizing state placed with
  | nil =>
    obtain rfl := List.map_eq_nil_iff.1 hm
    exact ⟨_, _, adds_nil state, rfl⟩
  | plain hp h ih =>
    obtain ⟨⟨offset, _⟩, placed, rfl, rfl, hrest⟩ := List.map_eq_cons_iff.1 hm
    obtain ⟨_, middle, hadd, hstack⟩ := exists_add_of_isPlain hp state offset
    obtain ⟨_, next, hadds, hlast⟩ := ih middle hrest
    exact ⟨_, next, .cons hadd hadds, hlast.trans hstack⟩
  | group b hi hr ihi ihr =>
    obtain ⟨start, own, stop, rest, rfl, hown, hrest⟩ := exists_group_of_map_eq hm
    obtain ⟨_, inside, hinside, hinner⟩ := ihi (state.opened b start) hown
    obtain ⟨_, next, hnext, hlast⟩ := ihr (inside.closed state.stack) hrest
    exact ⟨_, next, (hinside.group hinner stop).append hnext, hlast⟩

/-- The delimiters that tokens leave open are those that are open after laying them out. -/
theorem exists_adds_of_opens {placed : List (Nat × Token)} (h : Opens placed stack) :
    ∃ text next, ({} : LayoutState).Adds placed text next ∧ next.stack = stack := by
  induction h with
  | nothing h => exact exists_adds_of_nested h {} rfl
  | opening h b offset hi ih =>
    obtain ⟨_, outside, houtside, rfl⟩ := ih
    obtain ⟨_, inside, hinside, hstack⟩ := exists_adds_of_nested hi (outside.opened b offset) rfl
    exact ⟨_, inside, houtside.append (.cons (add_opening outside b offset) hinside), hstack⟩

/-- Nested tokens have a layout. -/
theorem exists_layOut_of_nested {placed : List (Nat × Token)} (h : Nested (placed.map Prod.snd)) :
    ∃ text, ({} : LayoutState).layOut placed = .ok text := by
  obtain ⟨_, next, hadds, hstack⟩ := exists_adds_of_nested h {} rfl
  obtain ⟨rest, hrest⟩ := exists_layOut_nil hstack
  have hlaid := hadds []
  rw [List.append_nil, hrest] at hlaid
  exact ⟨_, hlaid⟩

/-- A layout fails at the delimiter that fails. -/
theorem layOut_of_failsAt {placed : List (Nat × Token)} {offset : Nat} (h : FailsAt placed offset) :
    ({} : LayoutState).layOut placed = .error (.unbalanced offset) := by
  rcases h with ⟨front, b, back, stack, rfl, hopens, hb⟩ | ⟨b, stack, hopens⟩
  · obtain ⟨_, next, hadds, rfl⟩ := exists_adds_of_opens hopens
    rw [hadds, layOut_cons_eq_error (add_closing_eq_error hb offset)]
    rfl
  · obtain ⟨_, next, hadds, hstack⟩ := exists_adds_of_opens hopens
    have hlaid := hadds []
    rw [List.append_nil, layOut_nil_eq_error hstack] at hlaid
    exact hlaid

theorem nested_or_failsAt (placed : List (Nat × Token)) :
    Nested (placed.map Prod.snd) ∨ ∃ offset, FailsAt placed offset := by
  have hnothing : Opens [] [] := .nothing .nil
  exact hnothing.nested_or_failsAt placed

theorem layOut_eq_error_iff {placed : List (Nat × Token)} {error : LayoutError} :
    ({} : LayoutState).layOut placed = .error error ↔
      ∃ offset, FailsAt placed offset ∧ error = .unbalanced offset := by
  constructor
  · intro h
    rcases nested_or_failsAt placed with hnested | ⟨offset, hfails⟩
    · obtain ⟨text, htext⟩ := exists_layOut_of_nested hnested
      rw [htext] at h
      cases h
    · rw [layOut_of_failsAt hfails] at h
      exact ⟨offset, hfails, (Except.error.inj h).symm⟩
  · rintro ⟨offset, hfails, rfl⟩
    exact layOut_of_failsAt hfails

/-- Tokens whose delimiters are nested are those of which no delimiter fails. -/
theorem exists_failsAt_iff {placed : List (Nat × Token)} :
    (∃ offset, FailsAt placed offset) ↔ ¬Nested (placed.map Prod.snd) := by
  constructor
  · rintro ⟨offset, hfails⟩ hnested
    obtain ⟨text, htext⟩ := exists_layOut_of_nested hnested
    rw [layOut_of_failsAt hfails] at htext
    cases htext
  · intro h
    exact (nested_or_failsAt placed).resolve_left h

end LayoutState

namespace Layout

theorem apply_compact_eq_error_iff {raw : String} {error : LayoutError} :
    Layout.compact.apply raw = .error error ↔ compactText raw.toList = .error error := by
  unfold apply
  dsimp only
  cases compactText raw.toList <;> simp [Functor.map, Except.map]

/-- A text has no compact layout for its first string without an end, or else for the first
delimiter that fails. -/
theorem compactText_eq_error_iff {text : List Char} {error : LayoutError} :
    compactText text = .error error ↔
      (∃ offset, StopsAt text offset ∧ error = .unterminatedString offset) ∨
        ∃ placed offset, Reads text placed [] ∧ FailsAt placed offset ∧
          error = .unbalanced offset := by
  unfold compactText
  rw [bind_eq_error, scan_eq_error_iff]
  simp only [scan_eq_ok_iff, LayoutState.layOut_eq_error_iff]
  grind

/-- The compact layout of a text fails for the first string without an end; otherwise for the first
closing delimiter that does not close the innermost open one, or else for the innermost delimiter
that is open at the end; and otherwise it succeeds. -/
theorem apply_compact_diagnosis (raw : String) :
    (∀ offset, Layout.compact.apply raw = .error (.unterminatedString offset) ↔
      StopsAt raw.toList offset) ∧
    (∀ offset, Layout.compact.apply raw = .error (.unbalanced offset) ↔
      ∃ placed, Reads raw.toList placed [] ∧ FailsAt placed offset) ∧
    (∀ placed, Reads raw.toList placed [] →
      ((∃ offset, FailsAt placed offset) ↔ ¬Nested (placed.map Prod.snd))) ∧
    (Succeeds (Layout.compact.apply raw) ↔
      ∃ placed, Reads raw.toList placed [] ∧ Nested (placed.map Prod.snd)) ∧
    CutsAtCharacters raw.toList := by
  refine ⟨fun offset => ?_, fun offset => ?_, fun _ _ => LayoutState.exists_failsAt_iff, ?_,
    cutsAtCharacters _⟩
  · rw [apply_compact_eq_error_iff, compactText_eq_error_iff]
    simp
  · rw [apply_compact_eq_error_iff, compactText_eq_error_iff]
    simp
  · rw [apply, succeeds_map, compactText, succeeds_bind]
    simp only [scan_eq_ok_iff]
    refine exists_congr fun placed => and_congr_right fun _ => ⟨fun h => ?_, fun h =>
      LayoutState.exists_layOut_of_nested h⟩
    obtain ⟨text, htext⟩ := h
    by_contra hnested
    obtain ⟨offset, hfails⟩ := LayoutState.exists_failsAt_iff.2 hnested
    rw [LayoutState.layOut_of_failsAt hfails] at htext
    cases htext

/-- A string without an end is reported before a delimiter that nothing opens, and an escape at the
very end escapes nothing but the end. -/
example : Layout.compact.apply "é) \"\\" = .error (.unterminatedString 4) ∧
    Layout.compact.apply "é) \"\\é\"" = .error (.unbalanced 2) ∧
    Layout.compact.apply "é ([\"\\é\"" = .error (.unbalanced 4) := by decide

end Layout

end ScriptForms
