import Mathlib.Data.List.Basic
import ScriptForms.Text.Parser

/-!
# What parsers give

* `Lexeme.Within`: a class of texts made of characters with a property.
* `Lexeme.RunsTo`: what a repetition reads in front of a text.
* `Parser.RunsThrough`: what a repetition of a parser gives, one value after the other.
-/

namespace ScriptForms

/-! ### Classes of texts -/

namespace Lexeme

/-- Every character of every text of the class has a property. -/
def Within (p : Char → Prop) (lexeme : Lexeme) : Prop :=
  ∀ input n, lexeme input = some n → ∀ c ∈ input.take n, p c

variable {p : Char → Prop} {q : Char → Bool} {lexeme : Lexeme}

theorem within_char (h : ∀ c, q c → p c) : (char q).Within p := by
  intro input n hn c hc
  cases input with
  | nil => cases hn
  | cons d rest =>
    rw [char] at hn
    split at hn
    · rename_i hq
      cases hn
      obtain rfl : c = d := by simpa using hc
      exact h c hq
    · cases hn

theorem within_runWithin (h : lexeme.Within p) (bound input : List Char) :
    ∀ c ∈ input.take (runWithin lexeme bound input), p c := by
  induction bound generalizing input with
  | nil => simp [runWithin]
  | cons _ bound ih =>
    rw [runWithin]
    split
    · simp
    · rename_i n hn
      rw [List.take_add, List.forall_mem_append]
      exact ⟨h input n hn, ih _⟩

theorem within_many (h : lexeme.Within p) : lexeme.many.Within p := by
  intro input n hn
  cases hn
  exact within_runWithin h input input

/-! ### Texts in front of other texts -/

section Front

variable {front rest : List Char}

@[simp] theorem longest_nil (input : List Char) : longest [] input = none := rfl

@[simp] theorem longest_cons (lexeme : Lexeme) (lexemes : List Lexeme) (input : List Char) :
    longest (lexeme :: lexemes) input =
      Option.merge max (lexeme input) (longest lexemes input) := by
  cases h : lexeme input with
  | none => simp [longest, h]
  | some n =>
    simp only [longest, List.filterMap_cons, h, List.max?_cons]
    cases (lexemes.filterMap fun lexeme => lexeme input).max? <;> rfl

theorem times_char {p : Char → Bool} (h : ∀ c ∈ front, p c) (rest : List Char) :
    (char p).times front.length (front ++ rest) = some front.length := by
  induction front with
  | nil => rfl
  | cons c front ih =>
    obtain ⟨hc, hfront⟩ := List.forall_mem_cons.1 h
    simp [times, seq, char, hc, ih hfront, Nat.add_comm]

/-- A repetition reads a text, and nothing of what follows. -/
def RunsTo (lexeme : Lexeme) (front rest : List Char) : Prop :=
  ∀ bound : List Char, front.length ≤ bound.length →
    runWithin lexeme bound (front ++ rest) = front.length

theorem runsTo_nil (h : lexeme rest = none) : lexeme.RunsTo [] rest := by
  intro bound _
  cases bound with
  | nil => rfl
  | cons _ bound => simp [runWithin, h]

/-- One more text in front of those that are read. -/
theorem RunsTo.append {part : List Char} (h : lexeme.RunsTo front rest) (hne : part ≠ [])
    (hpart : lexeme (part ++ (front ++ rest)) = some part.length) :
    lexeme.RunsTo (part ++ front) rest := by
  intro bound hbound
  have hpos := List.length_pos_iff.2 hne
  rw [List.length_append] at hbound
  obtain ⟨b, bound, rfl⟩ := List.exists_cons_of_length_pos (l := bound) (by omega)
  rw [List.length_cons] at hbound
  rw [List.append_assoc, runWithin, hpart, List.length_append]
  dsimp only
  rw [List.drop_left, h bound (by omega)]

/-- What follows a first text of one character. -/
theorem RunsTo.tail {c : Char} (h : lexeme.RunsTo (c :: front) rest)
    (hc : lexeme (c :: (front ++ rest)) = some 1) : lexeme.RunsTo front rest := by
  intro bound hbound
  have hrun := h (c :: bound) (Nat.succ_le_succ hbound)
  rw [List.cons_append, runWithin, hc] at hrun
  dsimp only at hrun
  rw [List.drop_one, List.tail_cons, List.length_cons] at hrun
  omega

theorem RunsTo.many (h : lexeme.RunsTo front rest) :
    lexeme.many (front ++ rest) = some front.length :=
  congrArg some (h _ (by simp))

theorem runsTo_char {p : Char → Bool} (h : ∀ c ∈ front, p c) (hr : (char p) rest = none) :
    (char p).RunsTo front rest := by
  induction front with
  | nil => exact runsTo_nil hr
  | cons c front ih =>
    obtain ⟨hc, hfront⟩ := List.forall_mem_cons.1 h
    exact (ih hfront).append (List.cons_ne_nil c []) (by simp [char, hc])

theorem many1_char {p : Char → Bool} (hne : front ≠ []) (h : ∀ c ∈ front, p c)
    (hr : (char p) rest = none) : (char p).many1 (front ++ rest) = some front.length := by
  cases front with
  | nil => exact absurd rfl hne
  | cons c front =>
    obtain ⟨hc, hfront⟩ := List.forall_mem_cons.1 h
    simp [many1, seq, char, hc, (runsTo_char hfront hr).many, Nat.add_comm]

end Front

end Lexeme

/-! ### Parsers -/

namespace Parser

variable {α : Type} {p : Parser α}

/-- The values that a repetition gives, up to a place where there are no more. -/
def RunsThrough (p : Parser α) : Cursor → List α → Cursor → Prop
  | cursor, [], stop => p.run cursor = none ∧ stop = cursor
  | cursor, a :: values, stop =>
    ∃ next, p.run cursor = some (a, next) ∧ RunsThrough p next values stop

theorem RunsThrough.manyWithin {values : List α} {cursor stop : Cursor}
    (h : p.RunsThrough cursor values stop) {bound : List Char}
    (hb : values.length ≤ bound.length) :
    (p.manyWithin bound).run cursor = some (values, stop) := by
  induction bound generalizing cursor values with
  | nil =>
    obtain rfl : values = [] := List.length_eq_zero_iff.1 (Nat.le_zero.1 hb)
    obtain ⟨-, rfl⟩ := h
    rfl
  | cons _ bound ih =>
    rw [Parser.manyWithin, StateT.run_orElse, StateT.run_bind]
    cases values with
    | nil =>
      obtain ⟨hnone, rfl⟩ := h
      rw [hnone]
      rfl
    | cons a values =>
      obtain ⟨next, hrun, hrest⟩ := h
      have hothers := ih hrest (Nat.le_of_succ_le_succ hb)
      rw [hrun]
      simp [hothers]

end Parser

section Front

variable {lexeme : Lexeme} {front rest : List Char}

/-- A text of a class is read. -/
theorem exactly_run (h : lexeme (front ++ rest) = some front.length) (offset : Nat)
    (kept : List (Nat × Nat)) (isBarred : Bool) :
    (exactly lexeme).run ⟨offset, front ++ rest, kept, isBarred⟩ =
      some (front, ⟨offset + front.length, rest, kept, isBarred⟩) := by
  simp [exactly, h, Cursor.advance]

theorem discard_exactly_run (h : lexeme (front ++ rest) = some front.length) (offset : Nat)
    (kept : List (Nat × Nat)) (isBarred : Bool) :
    (discard (exactly lexeme) : Parser Unit).run ⟨offset, front ++ rest, kept, isBarred⟩ =
      some ((), ⟨offset + front.length, rest, kept, isBarred⟩) := by
  change ((fun _ => ()) <$> exactly lexeme).run _ = _
  rw [StateT.run_map, exactly_run h]
  rfl

theorem discard_exactly_eq_none {cursor : Cursor} (h : lexeme cursor.rest = none) :
    (discard (exactly lexeme) : Parser Unit).run cursor = none := by
  change ((fun _ => ()) <$> exactly lexeme).run _ = _
  simp only [exactly, StateT.run_map, StateT.run_bind, StateT.run_get, Option.bind_eq_bind,
    Option.pure_def, Option.bind_some, h]
  rfl

end Front

end ScriptForms
