import ScriptForms.Proofs.Outcome
import ScriptForms.Proofs.Token.Reading
import ScriptForms.Token.Layout

/-!
# The compact layout keeps the tokens

* `LayoutState.add_eq_ok`: what one token adds to a layout.
* `LayoutState.layOut_spells`: the text of a layout spells its tokens. The invariant is that a gap
  is due after a word, so that nothing can join it.
* `LayoutState.layOut_congr`: a layout does not depend on the offsets of its tokens.
* `Layout.apply_compact_tokens`: the compact layout of a text has the tokens of the text, and is its
  own compact layout.
-/

namespace ScriptForms

open Token

namespace Token

/-- Whether a token closes a form. -/
def isClosing : Token → Bool
  | .closing _ => true
  | _ => false

/-- Whether a token is an atom. -/
def isAtom : Token → Bool
  | .atom _ => true
  | _ => false

/-- What a layout writes for a token, after the gap before it. -/
def written : Token → List Char
  | .opening bracket => [bracket.opening]
  | .closing bracket => [bracket.closing]
  | .atom text => text
  | .comment text => text ++ ['\n']

theorem spells_written {token : Token} (hp : token.Proper) {rest : List Char} {tokens : List Token}
    (hr : token.isAtom → Breaks rest) (h : Spells rest tokens) :
    Spells (token.written ++ rest) (token :: tokens) := by
  cases token with
  | opening bracket => exact .opening bracket h
  | closing bracket => exact .closing bracket h
  | atom text =>
    rcases hp with hw | hs
    · exact .word hw (hr rfl) h
    · exact .string hs h
  | comment text =>
    obtain ⟨hhead, hn, htrim⟩ := hp
    obtain ⟨body, rfl⟩ := List.head?_eq_some_iff.1 hhead
    rw [written, List.append_assoc]
    have hcomment := Spells.comment (fun hb => hn (List.mem_cons_of_mem _ hb)) h
    rw [htrim] at hcomment
    exact hcomment

end Token

namespace LayoutState

variable {state next : LayoutState} {offset : Nat} {token : Token} {text : List Char}

/-! ### Gaps -/

theorem isBlank_of_mem_gap {c : Char} (h : c ∈ state.gap) : Text.isBlank c := by
  unfold gap at h
  split_ifs at h
  all_goals simp only [List.mem_cons, List.not_mem_nil, or_false, or_self] at h
  all_goals
    subst h
    rfl

theorem breaks_gap (h : state.gap ≠ []) (rest : List Char) : Breaks (state.gap ++ rest) := by
  obtain ⟨c, more, hgap⟩ := List.exists_cons_of_ne_nil h
  rw [hgap]
  exact breaks_of_isBlank (isBlank_of_mem_gap (by rw [hgap]; exact List.mem_cons_self)) _

/-! ### One token -/

/-- A token writes its text after the gap that is due, or at once if it closes a form, and a gap is
due after an atom. -/
theorem add_eq_ok (h : state.add offset token = .ok (text, next)) :
    text = (if token.isClosing then [] else state.gap) ++ token.written ∧
      (token.isAtom → next.gap ≠ []) := by
  cases token with
  | opening bracket =>
    cases h
    exact ⟨rfl, by simp [isAtom]⟩
  | closing bracket =>
    refine ⟨?_, by simp [isAtom]⟩
    unfold add at h
    dsimp only at h
    split at h
    · split at h
      · cases h
        rfl
      · cases h
    · cases h
  | atom word =>
    cases h
    refine ⟨rfl, fun _ => ?_⟩
    -- Inside a form a space is due; at the top level a tag glues and anything else is a form.
    unfold gap
    cases state.stack with
    | cons open_ stack => simp
    | nil => cases isReaderTag word <;> simp
  | comment line =>
    cases h
    exact ⟨by simp [isClosing, written], by simp [isAtom]⟩

/-! ### All tokens -/

/-- The text of a layout spells its tokens, and starts with a break if a gap is due. -/
theorem layOut_spells {tokens : List (Nat × Token)}
    (hp : ∀ token ∈ tokens.map Prod.snd, token.Proper) (h : state.layOut tokens = .ok text) :
    Spells text (tokens.map Prod.snd) ∧ (state.gap ≠ [] → Breaks text) := by
  induction tokens generalizing state text with
  | nil =>
    unfold layOut at h
    split at h
    · cases h
    · cases h
      split_ifs
      · exact ⟨.blank rfl .nil, fun _ => breaks_of_isBlank rfl _⟩
      · exact ⟨.nil, fun _ => breaks_nil⟩
  | cons placed tokens ih =>
    obtain ⟨offset, token⟩ := placed
    rw [List.map_cons, List.forall_mem_cons] at hp
    rw [layOut] at h
    obtain ⟨⟨front, next⟩, hadd, h⟩ := bind_eq_ok.1 h
    obtain ⟨rest, hrest, h⟩ := bind_eq_ok.1 h
    cases h
    obtain ⟨hspells, hbreaks⟩ := ih hp.2 hrest
    obtain ⟨rfl, hgap⟩ := add_eq_ok hadd
    -- Only an atom needs a break after it; the state after an atom has a gap to give.
    have hwritten : Spells (token.written ++ rest) (token :: tokens.map Prod.snd) :=
      spells_written hp.1 (fun ha => hbreaks (hgap ha)) hspells
    rw [List.append_assoc]
    by_cases hc : token.isClosing
    · rw [if_pos hc, List.nil_append]
      refine ⟨hwritten, fun _ => ?_⟩
      cases token with
      | closing bracket => exact breaks_closing bracket rest
      | _ => cases hc
    · rw [if_neg hc]
      exact ⟨hwritten.blanks fun c => isBlank_of_mem_gap, fun hne => breaks_gap hne _⟩

/-! ### Runs -/

/-- The tokens add the text to a layout and leave it in another state, whatever comes behind
them. -/
def Adds (state : LayoutState) (placed : List (Nat × Token)) (text : List Char)
    (next : LayoutState) : Prop :=
  ∀ rest, state.layOut (placed ++ rest) = (text ++ ·) <$> next.layOut rest

theorem adds_nil (state : LayoutState) : state.Adds [] [] state := by
  intro rest
  rw [List.nil_append]
  cases state.layOut rest <;> rfl

theorem Adds.append {last : LayoutState} {placed later : List (Nat × Token)} {more : List Char}
    (h : state.Adds placed text next) (hl : next.Adds later more last) :
    state.Adds (placed ++ later) (text ++ more) last := by
  intro rest
  rw [List.append_assoc, h, hl, ← comp_map]
  simp only [Function.comp_def, List.append_assoc]

theorem adds_singleton (h : state.add offset token = .ok (text, next)) :
    state.Adds [(offset, token)] text next := by
  intro rest
  rw [List.singleton_append, layOut, h]
  change (do let later ← next.layOut rest; pure (text ++ later)) = _
  cases next.layOut rest <;> rfl

theorem Adds.cons {last : LayoutState} {later : List (Nat × Token)} {more : List Char}
    (h : state.add offset token = .ok (text, next)) (hl : next.Adds later more last) :
    state.Adds ((offset, token) :: later) (text ++ more) last :=
  (adds_singleton h).append hl

/-- The state behind an opening delimiter. -/
def opened (state : LayoutState) (b : Bracket) (offset : Nat) : LayoutState :=
  { state with stack := (b, offset) :: state.stack, spaceDue := false, glued := false }

theorem add_opening (state : LayoutState) (b : Bracket) (offset : Nat) :
    state.add offset (.opening b) = .ok (state.gap ++ [b.opening], state.opened b offset) := rfl

/-- The state behind the closing delimiter of what is innermost. -/
def closed (state : LayoutState) (stack : List (Bracket × Nat)) : LayoutState :=
  { stack, last := if stack.isEmpty then .form else state.last, spaceDue := true, glued := false }

theorem add_closing {b : Bracket} {start : Nat} {stack : List (Bracket × Nat)}
    (h : state.stack = (b, start) :: stack) (offset : Nat) :
    state.add offset (.closing b) = .ok ([b.closing], state.closed stack) := by
  unfold add
  rw [h]
  exact if_pos rfl

/-- What adds a text inside a pair of delimiters adds it together with them. -/
theorem Adds.group {b : Bracket} {start : Nat} {inner : List (Nat × Token)}
    {stack : List (Bracket × Nat)} (h : (state.opened b start).Adds inner text next)
    (hs : next.stack = (b, start) :: stack) (stop : Nat) :
    state.Adds ((start, .opening b) :: (inner ++ [(stop, .closing b)]))
      (state.gap ++ b.opening :: (text ++ [b.closing])) (next.closed stack) := by
  have hgroup := Adds.cons (add_opening state b start)
    (h.append (adds_singleton (add_closing hs stop)))
  rwa [List.append_assoc, List.singleton_append] at hgroup

/-- Tokens that start with a pair of delimiters are cut behind it. -/
theorem exists_group_of_map_eq {b : Bracket} {tokens more : List Token}
    {placed : List (Nat × Token)}
    (h : placed.map Prod.snd = .opening b :: (tokens ++ .closing b :: more)) :
    ∃ start inner stop rest,
      placed = (start, .opening b) :: (inner ++ [(stop, .closing b)]) ++ rest ∧
      inner.map Prod.snd = tokens ∧ rest.map Prod.snd = more := by
  obtain ⟨⟨start, _⟩, _, rfl, rfl, htail⟩ := List.map_eq_cons_iff.1 h
  obtain ⟨inner, _, rfl, hinner, hclosing⟩ := List.map_eq_append_iff.1 htail
  obtain ⟨⟨stop, _⟩, rest, rfl, rfl, hrest⟩ := List.map_eq_cons_iff.1 hclosing
  exact ⟨start, inner, stop, rest, by simp, hinner, hrest⟩

/-! ### Offsets -/

/-- Two states that differ in the offsets of their open delimiters only. -/
def Alike (s t : LayoutState) : Prop :=
  s.stack.map Prod.fst = t.stack.map Prod.fst ∧ s.last = t.last ∧ s.spaceDue = t.spaceDue ∧
    s.glued = t.glued

theorem Alike.isEmpty_stack {s t : LayoutState} (h : Alike s t) :
    s.stack.isEmpty = t.stack.isEmpty := by
  rw [← List.isEmpty_map (f := Prod.fst), h.1, List.isEmpty_map]

theorem Alike.gap {s t : LayoutState} (h : Alike s t) : s.gap = t.gap := by
  unfold LayoutState.gap
  rw [h.isEmpty_stack, h.2.1, h.2.2.1, h.2.2.2]

/-- One token adds the same text to states that are alike, and leaves them alike. -/
theorem Alike.add {s t s' : LayoutState} (h : Alike s t) (hs : s.add offset token = .ok (text, s'))
    (offset' : Nat) : ∃ t', t.add offset' token = .ok (text, t') ∧ Alike s' t' := by
  have hempty := h.isEmpty_stack
  have hgap := h.gap
  obtain ⟨hstack, hlast, hspace, hglued⟩ := h
  cases token with
  | opening bracket =>
    cases hs
    rw [hgap]
    exact ⟨_, rfl, by simp [hstack], hlast, rfl, rfl⟩
  | closing bracket =>
    unfold LayoutState.add at hs ⊢
    cases hopen : s.stack with
    | nil =>
      rw [hopen] at hs
      cases hs
    | cons top stack =>
      rw [hopen, List.map_cons] at hstack
      obtain ⟨top', stack', hopen', htop, hrest⟩ := List.map_eq_cons_iff.1 hstack.symm
      rw [hopen] at hs
      dsimp only at hs
      rw [hopen']
      dsimp only
      rw [htop]
      split at hs
      · rename_i hmatch
        cases hs
        have hempty : stack.isEmpty = stack'.isEmpty := by
          rw [← List.isEmpty_map (f := Prod.fst), ← hrest, List.isEmpty_map]
        rw [if_pos hmatch]
        exact ⟨_, rfl, hrest.symm, by simp [hempty, hlast], rfl, rfl⟩
      · cases hs
  | atom word =>
    cases hs
    rw [hgap]
    exact ⟨_, rfl, hstack, by simp [hempty, hlast], rfl, by simp [hempty]⟩
  | comment line =>
    cases hs
    rw [hgap]
    exact ⟨_, rfl, hstack, by simp [hempty, hlast], rfl, rfl⟩

/-- The text of a layout does not depend on the offsets of its tokens. -/
theorem layOut_congr {s t : LayoutState} (h : Alike s t) {tokens tokens' : List (Nat × Token)}
    (hm : tokens'.map Prod.snd = tokens.map Prod.snd) (hs : s.layOut tokens = .ok text) :
    t.layOut tokens' = .ok text := by
  induction tokens generalizing s t tokens' text with
  | nil =>
    obtain rfl : tokens' = [] := List.map_eq_nil_iff.1 hm
    unfold layOut at hs ⊢
    split at hs
    · cases hs
    · rename_i hopen
      have hopen' : t.stack = [] := by
        rw [← List.isEmpty_iff, ← h.isEmpty_stack, hopen]
        rfl
      rw [hopen', ← h.2.1]
      exact hs
  | cons placed tokens ih =>
    obtain ⟨⟨offset', token'⟩, later, rfl, htoken, hlater⟩ := List.map_eq_cons_iff.1 hm
    obtain ⟨offset, token⟩ := placed
    obtain rfl : token' = token := htoken
    rw [layOut] at hs ⊢
    obtain ⟨⟨front, s'⟩, hadd, hs⟩ := bind_eq_ok.1 hs
    obtain ⟨rest, hrest, hs⟩ := bind_eq_ok.1 hs
    obtain ⟨t', hadd', halike⟩ := h.add hadd offset'
    exact bind_eq_ok.2 ⟨_, hadd', bind_eq_ok.2 ⟨rest, ih halike hlater hrest, hs⟩⟩

end LayoutState

namespace Layout

/-- The compact layout of a text has the tokens of the text. -/
theorem compactText_spells {raw out : List Char} (h : compactText raw = .ok out) :
    ∃ tokens, Spells raw tokens ∧ Spells out tokens := by
  obtain ⟨placed, hscan, hlaid⟩ := bind_eq_ok.1 h
  have hraw : Spells raw (placed.map Prod.snd) := spells_iff.2 ⟨placed, hscan, rfl⟩
  exact ⟨_, hraw, (LayoutState.layOut_spells hraw.proper hlaid).1⟩

/-- Texts with the same tokens have the same compact layout. -/
theorem compactText_congr {raw other out : List Char} {tokens : List Token} (hr : Spells raw tokens)
    (ho : Spells other tokens) (h : compactText raw = .ok out) : compactText other = .ok out := by
  obtain ⟨placed, hscan, hlaid⟩ := bind_eq_ok.1 h
  obtain ⟨placed₁, hscan₁, hplaced₁⟩ := spells_iff.1 hr
  obtain ⟨placed₂, hscan₂, hplaced₂⟩ := spells_iff.1 ho
  obtain rfl : placed = placed₁ := Except.ok.inj (hscan.symm.trans hscan₁)
  have halike : LayoutState.Alike {} {} := ⟨rfl, rfl, rfl, rfl⟩
  exact bind_eq_ok.2 ⟨placed₂, hscan₂,
    LayoutState.layOut_congr halike (hplaced₂.trans hplaced₁.symm) hlaid⟩

/-- A compact layout has exactly the tokens of the text it is a layout of, and laying it out again
changes nothing. -/
theorem apply_compact_tokens (raw out : String) (h : Layout.compact.apply raw = .ok out) :
    (∃ before after, Token.scan raw.toList = .ok before ∧ Token.scan out.toList = .ok after ∧
      after.map Prod.snd = before.map Prod.snd) ∧ Layout.compact.apply out = .ok out := by
  unfold apply at h ⊢
  cases hc : compactText raw.toList with
  | error fault =>
    rw [hc] at h
    cases h
  | ok text =>
    rw [hc] at h
    obtain rfl : String.ofList text = out := Except.ok.inj h
    obtain ⟨tokens, hraw, hout⟩ := compactText_spells hc
    obtain ⟨before, hbefore, hmap⟩ := spells_iff.1 hraw
    obtain ⟨after, hafter, hmap'⟩ := spells_iff.1 hout
    rw [String.toList_ofList]
    refine ⟨⟨before, after, hbefore, hafter, hmap'.trans hmap.symm⟩, ?_⟩
    rw [compactText_congr hraw hout hc]
    rfl

/-- A word next to a string and a tag on its own line. -/
theorem apply_compact_tokens_words :
    Layout.compact.apply "a\"b\" ; c \n#js\n[]" = .ok "a\n\n\"b\"\n\n; c\n#js []\n" ∧
      Layout.compact.apply "a\n\n\"b\"\n\n; c\n#js []\n" =
        .ok "a\n\n\"b\"\n\n; c\n#js []\n" := by
  have h : Layout.compact.apply "a\"b\" ; c \n#js\n[]" = .ok "a\n\n\"b\"\n\n; c\n#js []\n" := by
    decide
  exact ⟨h, (apply_compact_tokens _ _ h).2⟩

end Layout

end ScriptForms
