import ScriptForms.Form.Printer
import ScriptForms.Proofs.Token.Reading

/-!
# Literals as tokens

A string literal and a regular expression literal are each one string token, whatever characters
they hold.

* `Token.Inside`: text that a string goes on after.
* `Form.endsEscaping`: the patterns whose last backslash would escape the closing quote.
-/

namespace ScriptForms

namespace Token

/-- A string that reaches the text goes on after it. -/
def Inside (text : List Char) : Prop :=
  ∀ rest, stringBody (text ++ rest) =
    (stringBody rest).map fun (body, rest) => (text ++ body, rest)

theorem inside_nil : Inside [] := by
  intro rest
  cases h : stringBody rest <;> simp [h]

theorem Inside.append {s t : List Char} (hs : Inside s) (ht : Inside t) : Inside (s ++ t) := by
  intro rest
  rw [List.append_assoc, hs, ht, Option.map_map]
  congr 1
  funext ⟨body, rest⟩
  simp

theorem inside_char {c : Char} (hq : c ≠ '"') (hs : c ≠ '\\') : Inside [c] := fun rest =>
  stringBody_char hq hs rest

theorem inside_escape (c : Char) : Inside ['\\', c] := fun rest => stringBody_escape c rest

theorem inside_flatMap {α : Type} {f : α → List Char} {l : List α} (h : ∀ a ∈ l, Inside (f a)) :
    Inside (l.flatMap f) := by
  induction l with
  | nil => exact inside_nil
  | cons a l ih =>
    rw [List.forall_mem_cons] at h
    rw [List.flatMap_cons]
    exact h.1.append (ih h.2)

theorem inside_plain {text : List Char} (h : ∀ c ∈ text, c ≠ '"' ∧ c ≠ '\\') : Inside text := by
  induction text with
  | nil => exact inside_nil
  | cons c text ih =>
    rw [List.forall_mem_cons] at h
    exact (inside_char h.1.1 h.1.2).append (ih h.2)

/-- Text inside a string is closed by the first quote after it. -/
theorem Inside.closed {text : List Char} (h : Inside text) :
    stringBody (text ++ ['"']) = some (text ++ ['"'], []) := by
  rw [h]
  rfl

end Token

open Token

/-! ### Strings -/

namespace Json

theorem digitChar_ne : ∀ n < 16, Nat.digitChar n ≠ '"' ∧ Nat.digitChar n ≠ '\\' := by
  decide

theorem inside_quoteChar (c : Char) : Inside (quoteChar c) := by
  rcases quoteChar_cases c with ⟨letter, -, h⟩ | ⟨hcontrol, h⟩ | ⟨hquote, hslash, h⟩ <;> rw [h]
  · exact inside_escape letter
  · refine (inside_escape 'u').append (inside_plain fun d hd => ?_)
    rcases List.mem_append.1 (show d ∈ ['0', '0'] ++ hexPair c.toNat from hd) with hd | hd
    · rcases List.mem_pair.1 hd with rfl | rfl <;> decide
    · rcases List.mem_pair.1 hd with rfl | rfl
      · exact digitChar_ne _ (by omega)
      · exact digitChar_ne _ (by omega)
  · exact inside_char hquote hslash

theorem isString_quote (text : List Char) : IsString (quote text) :=
  ⟨quoteBody text ++ ['"'], .inl rfl, (inside_flatMap fun c _ => inside_quoteChar c).closed⟩

end Json

/-! ### Regular expressions -/

namespace Form

/-- Whether a pattern ends in a backslash that no other backslash escapes: its last backslashes are
odd in number. -/
def endsEscaping (pattern : List Char) : Bool :=
  (pattern.reverse.takeWhile (· = '\\')).length % 2 = 1

/-- Whether a backslash escapes what follows a text, if `escaped` says so of the text itself. -/
def escapes (escaped : Bool) (text : List Char) : Bool :=
  text.foldl (fun escaped c => c = '\\' && !escaped) escaped

theorem escapes_concat (escaped : Bool) (text : List Char) (c : Char) :
    escapes escaped (text ++ [c]) = (c = '\\' && !escapes escaped text) := by
  simp [escapes]

theorem endsEscaping_eq (pattern : List Char) : endsEscaping pattern = escapes false pattern := by
  induction pattern using List.reverseRecOn with
  | nil => rfl
  | append_singleton pattern c ih =>
    rw [escapes_concat, ← ih, endsEscaping, endsEscaping]
    by_cases hc : c = '\\'
    · rw [Bool.eq_iff_iff]
      simp only [hc, List.reverse_append, List.reverse_singleton, List.singleton_append,
        decide_true, List.takeWhile_cons_of_pos, List.length_cons, decide_eq_true_eq, Bool.true_and,
        Bool.not_eq_true', decide_eq_false_iff_not]
      omega
    · simp [hc]

/-- A backslash that waits for the character it escapes. -/
def held (escaped : Bool) : List Char := if escaped then ['\\'] else []

theorem inside_escapeQuotes {escaped : Bool} {pattern : List Char}
    (h : escapes escaped pattern = false) :
    Inside (held escaped ++ escapeQuotes escaped pattern) := by
  induction pattern generalizing escaped with
  | nil =>
    rw [escapes, List.foldl_nil] at h
    rw [h]
    exact inside_nil
  | cons c pattern ih =>
    rw [escapes, List.foldl_cons, ← escapes] at h
    have ih := ih h
    cases escaped with
    | true =>
      simp only [Bool.not_true, Bool.and_false, held, escapeQuotes] at ih ⊢
      exact (inside_escape c).append ih
    | false =>
      by_cases hs : c = '\\'
      · -- The backslash is held until the next character is known.
        subst hs
        exact ih
      by_cases hq : c = '"'
      · subst hq
        exact (inside_escape '"').append ih
      · simp only [hs, hq, held, escapeQuotes] at ih ⊢
        exact (inside_char hq hs).append ih

theorem isString_regexText {pattern : List Char} (h : ¬endsEscaping pattern) (flags : List Char) :
    IsString (regexText pattern flags) := by
  have hpattern : Inside (escapeQuotes false pattern) := by
    rw [endsEscaping_eq, Bool.not_eq_true] at h
    exact inside_escapeQuotes h
  have hkept : ∀ c ∈ flags.filter isKeptFlag, c ≠ '"' ∧ c ≠ '\\' := by
    intro c hc
    have hc := (List.mem_filter.1 hc).2
    constructor <;> rintro rfl <;> revert hc <;> decide
  have hgroup : ∀ c ∈ ['(', '?'] ++ flags.filter isKeptFlag ++ [')'], c ≠ '"' ∧ c ≠ '\\' := by
    intro c hc
    simp only [List.mem_append, List.mem_cons, List.not_mem_nil, or_false] at hc
    rcases hc with ((rfl | rfl) | hc) | rfl
    · decide
    · decide
    · exact hkept c hc
    · decide
  unfold regexText
  dsimp only
  split_ifs
  · exact ⟨_, .inr rfl, hpattern.closed⟩
  · exact ⟨_, .inr rfl, ((inside_plain hgroup).append hpattern).closed⟩

end Form

end ScriptForms
