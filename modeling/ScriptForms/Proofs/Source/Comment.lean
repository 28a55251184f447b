import Mathlib.Data.List.DropRight
import ScriptForms.Proofs.Text.Parser
import ScriptForms.Source.Comment
import ScriptForms.Source.Lexeme

/-!
# The lines of comments

A comment is read as two slashes and the rest of a line, or as a block between its marks. Whatever
it holds, each of its lines is a single line without outer white space.

* `Source.IsCommentText`: the texts of comments; `Source.isCommentText_of_comment`: what is read as
  a comment is such a text.
* `Text.IsTrimmedLine`: single lines without outer white space.
* `Source.isTrimmedLine_of_mem_commentLines`: the lines of a comment are such lines.
-/

namespace ScriptForms

/-! ### White space and lines -/

namespace Text

theorem trimEnd_trimEnd (s : List Char) : trimEnd (trimEnd s) = trimEnd s :=
  List.rdropWhile_idempotent isBlank s

/-- White space that is dropped at the end does not bring any to the front. -/
theorem trimStart_trimEnd {s : List Char} (h : trimStart s = s) :
    trimStart (trimEnd s) = trimEnd s := by
  rw [trimStart, List.dropWhile_eq_self_iff] at h ⊢
  intro hl
  have hfront : trimEnd s <+: s := List.rdropWhile_prefix isBlank s
  rw [hfront.getElem hl]
  exact h (Nat.lt_of_lt_of_le hl hfront.length_le)

theorem trim_trim (s : List Char) : trim (trim s) = trim s := by
  have hstart : trimStart (trimStart s) = trimStart s := List.dropWhile_idempotent isBlank s
  rw [trim, trim, trimStart_trimEnd hstart, trimEnd_trimEnd]

theorem mem_of_mem_trim {c : Char} {s : List Char} (h : c ∈ trim s) : c ∈ s := by
  have hfront : trim s <+: trimStart s := List.rdropWhile_prefix isBlank (trimStart s)
  exact (List.dropWhile_sublist isBlank).mem (hfront.mem h)

/-- A single line without outer white space. -/
def IsTrimmedLine (s : List Char) : Prop := '\n' ∉ s ∧ trim s = s

instance (s : List Char) : Decidable (IsTrimmedLine s) := inferInstanceAs (Decidable (_ ∧ _))

theorem isTrimmedLine_trim {s : List Char} (h : '\n' ∉ s) : IsTrimmedLine (trim s) :=
  ⟨fun hc => h (mem_of_mem_trim hc), trim_trim s⟩

theorem not_mem_splitLinesFrom {line s : List Char} (h : '\n' ∉ line) :
    ∀ l ∈ splitLinesFrom line s, '\n' ∉ l := by
  induction s generalizing line with
  | nil =>
    rw [splitLinesFrom]
    split
    · simp
    · simpa using h
  | cons c rest ih =>
    rw [splitLinesFrom]
    split
    · rw [List.forall_mem_cons]
      refine ⟨?_, ih (by simp)⟩
      rw [List.mem_reverse]
      split
      · exact fun hc => h (List.mem_of_mem_tail hc)
      · exact h
    · rename_i hc
      exact ih (by simpa [Ne.symm hc] using h)

theorem not_mem_splitLines (s : List Char) : ∀ l ∈ splitLines s, '\n' ∉ l :=
  not_mem_splitLinesFrom (by simp)

end Text

/-! ### Comments -/

namespace Source

open Text (IsTrimmedLine isTrimmedLine_trim)

/-- The texts of comments: two slashes before a text within a line, or any text between the marks of
a block. -/
inductive IsCommentText : List Char → Prop where
  | line {body : List Char} (h : ∀ c ∈ body, ¬isLineEnd c) : IsCommentText ('/' :: '/' :: body)
  | block (body : List Char) : IsCommentText ('/' :: '*' :: (body ++ ['*', '/']))

/-- Whether a text is that of a comment. -/
def isCommentText : List Char → Bool
  | '/' :: '/' :: body => body.all (!isLineEnd ·)
  | '/' :: '*' :: rest => ['*', '/'].isSuffixOf rest
  | _ => false

theorem isCommentText_iff {text : List Char} : isCommentText text ↔ IsCommentText text := by
  constructor
  · intro h
    unfold isCommentText at h
    split at h
    · exact .line fun c hc => by simpa using List.all_eq_true.1 h c hc
    · obtain ⟨body, rfl⟩ := List.isSuffixOf_iff_suffix.1 h
      exact .block body
    · cases h
  · intro h
    cases h with
    | line h => exact List.all_eq_true.2 fun c hc => by simpa using h c hc
    | block body => exact List.isSuffixOf_iff_suffix.2 (List.suffix_append body ['*', '/'])

instance : DecidablePred IsCommentText := fun _ => decidable_of_iff _ isCommentText_iff

theorem blockCommentRest_eq_some {input : List Char} {n : Nat}
    (h : blockCommentRest input = some n) : ∃ body, input.take n = body ++ ['*', '/'] := by
  fun_induction blockCommentRest input generalizing n with
  | case1 rest =>
    cases h
    exact ⟨[], by simp⟩
  | case2 c rest hne ih =>
    obtain ⟨m, hm, rfl⟩ := Option.map_eq_some_iff.1 h
    obtain ⟨body, hbody⟩ := ih hm
    exact ⟨c :: body, by simp [hbody]⟩
  | case3 => cases h

/-- What is read as a comment is the text of one. -/
theorem isCommentText_of_comment {input : List Char} {n : Nat} (h : comment input = some n) :
    IsCommentText (input.take n) := by
  unfold comment at h
  split at h
  · rename_i rest
    obtain ⟨m, hm, rfl⟩ := Option.map_eq_some_iff.1 h
    have hline : ((Lexeme.char (!isLineEnd ·)).many).Within (¬isLineEnd ·) :=
      Lexeme.within_many (Lexeme.within_char fun c hc => by simpa using hc)
    exact .line (hline rest m hm)
  · rename_i rest
    obtain ⟨m, hm, rfl⟩ := Option.map_eq_some_iff.1 h
    obtain ⟨body, hbody⟩ := blockCommentRest_eq_some hm
    rw [List.take_succ_cons, List.take_succ_cons, hbody]
    exact .block body
  · cases h

theorem isTrimmedLine_commentLine {line : List Char} (h : '\n' ∉ line) :
    IsTrimmedLine (commentLine line) := by
  have hline : IsTrimmedLine (Text.trim line) := isTrimmedLine_trim h
  unfold commentLine
  split
  · rename_i rest hrest
    refine isTrimmedLine_trim fun hc => hline.1 ?_
    rw [hrest]
    exact List.mem_cons_of_mem _ hc
  · exact hline

/-- The lines of a comment are single lines without outer white space. -/
theorem isTrimmedLine_of_mem_commentLines {text : List Char} (h : IsCommentText text)
    {line : String} (hm : line ∈ commentLines text) : IsTrimmedLine line.toList := by
  cases h with
  | line h =>
    rename_i body
    obtain rfl : line = String.ofList (Text.trim body) := by simpa [commentLines] using hm
    rw [String.toList_ofList]
    exact isTrimmedLine_trim fun hc => h '\n' hc (by decide)
  | block body =>
    simp only [commentLines] at hm
    obtain ⟨_, hline, rfl⟩ := List.mem_map.1 hm
    obtain ⟨raw, hraw, rfl⟩ := List.mem_map.1 (List.mem_filter.1 hline).1
    rw [String.toList_ofList]
    exact isTrimmedLine_commentLine (Text.not_mem_splitLines _ raw hraw)

end Source

end ScriptForms
