import ScriptForms.Proofs.Form.Serialization
import ScriptForms.Proofs.Token.Layout

/-!
# Printed forms have a layout

Whether tokens have a layout depends on their delimiters alone. Those of a form are balanced: a
layout comes to the end of the form with the delimiters open that were open before it.

* `LayoutState.LaysOut`: tokens that have a layout when certain delimiters are open.
* `LayoutState.Balanced`: tokens that leave the open delimiters as they are.
* `Form.balanced_tokens`, `Form.compactText_of_spells`: the tokens of a form are balanced, so that
  whatever spells them has a compact layout.
-/

namespace ScriptForms

open Token

namespace LayoutState

/-- The tokens have a layout from every state with these delimiters open, wherever they stand. -/
def LaysOut (stack : List (Bracket × Nat)) (tokens : List Token) : Prop :=
  ∀ (state : LayoutState) (placed : List (Nat × Token)), state.stack = stack →
    placed.map Prod.snd = tokens → Succeeds (state.layOut placed)

/-- Whatever can follow these tokens can follow what was open before them. -/
def Balanced (tokens : List Token) : Prop :=
  ∀ stack rest, LaysOut stack rest → LaysOut stack (tokens ++ rest)

/-! ### One token -/

theorem laysOut_nil : LaysOut [] [] := by
  intro state placed hstack hplaced
  rw [List.map_eq_nil_iff.1 hplaced, layOut, hstack]
  exact succeeds_ok _

/-- A token has a layout if the state after it lays out the rest. -/
theorem laysOut_cons {stack : List (Bracket × Nat)} {token : Token} {tokens : List Token}
    (h : ∀ (state : LayoutState) (offset : Nat), state.stack = stack →
      ∃ text next, state.add offset token = .ok (text, next) ∧ LaysOut next.stack tokens) :
    LaysOut stack (token :: tokens) := by
  intro state placed hstack hplaced
  obtain ⟨⟨offset, token'⟩, later, rfl, rfl, hlater⟩ := List.map_eq_cons_iff.1 hplaced
  obtain ⟨text, next, hadd, hnext⟩ := h state offset hstack
  rw [layOut, succeeds_bind]
  exact ⟨(text, next), hadd, by simpa using hnext next later rfl hlater⟩

theorem laysOut_opening {stack : List (Bracket × Nat)} {bracket : Bracket} {tokens : List Token}
    (h : ∀ offset, LaysOut ((bracket, offset) :: stack) tokens) :
    LaysOut stack (.opening bracket :: tokens) := by
  refine laysOut_cons fun state offset hstack => ⟨_, _, rfl, ?_⟩
  rw [hstack]
  exact h offset

theorem laysOut_closing {stack : List (Bracket × Nat)} {bracket : Bracket} {tokens : List Token}
    (h : LaysOut stack tokens) (offset : Nat) :
    LaysOut ((bracket, offset) :: stack) (.closing bracket :: tokens) := by
  refine laysOut_cons fun state offset hstack => ?_
  rw [add, hstack]
  dsimp only
  rw [if_pos rfl]
  exact ⟨_, _, rfl, h⟩

/-! ### Balanced tokens -/

theorem balanced_nil : Balanced [] := fun _ _ h => h

theorem Balanced.append {tokens others : List Token} (h : Balanced tokens) (ho : Balanced others) :
    Balanced (tokens ++ others) := by
  intro stack rest hrest
  rw [List.append_assoc]
  exact h stack _ (ho stack rest hrest)

/-- A token that opens and closes nothing. -/
theorem balanced_singleton {token : Token}
    (h : ∀ (state : LayoutState) (offset : Nat),
      ∃ text next, state.add offset token = .ok (text, next) ∧ next.stack = state.stack) :
    Balanced [token] := by
  intro stack rest hrest
  refine laysOut_cons fun state offset hstack => ?_
  obtain ⟨text, next, hadd, hnext⟩ := h state offset
  refine ⟨text, next, hadd, ?_⟩
  rw [hnext, hstack]
  exact hrest

theorem balanced_atom (text : List Char) : Balanced [.atom text] :=
  balanced_singleton fun _ _ => ⟨_, _, rfl, rfl⟩

theorem balanced_comment (text : List Char) : Balanced [.comment text] :=
  balanced_singleton fun _ _ => ⟨_, _, rfl, rfl⟩

theorem Balanced.bracketed {tokens : List Token} (h : Balanced tokens) (bracket : Bracket) :
    Balanced (.opening bracket :: tokens ++ [.closing bracket]) := by
  intro stack rest hrest
  rw [List.cons_append, List.cons_append, List.append_assoc, List.singleton_append]
  -- The delimiter that is opened here is on top again when its partner comes.
  exact laysOut_opening fun offset => h _ _ (laysOut_closing hrest offset)

end LayoutState

namespace Form

open LayoutState

theorem balanced_tokensAll {forms : List Form} (h : ∀ form ∈ forms, Balanced form.tokens) :
    Balanced (tokensAll forms) := by
  induction forms with
  | nil => exact balanced_nil
  | cons form forms ih =>
    rw [List.forall_mem_cons] at h
    rw [tokensAll]
    exact h.1.append (ih h.2)

theorem balanced_tokens (form : Form) : Balanced form.tokens := by
  induction form using induction_on_parts with
  | h form ih =>
    cases form with
    | symbol _ | keyword _ | number _ | string _ | boolean _ | regex _ _ =>
      exact balanced_atom _
    | list children | vector children | hashMap children =>
      exact (balanced_tokensAll ih).bracketed _
    | program children => exact balanced_tokensAll ih
    | mapEntry key value => exact (ih key (by simp [parts])).append (ih value (by simp [parts]))
    | tagged tag form => exact (balanced_atom _).append (ih form (by simp [parts]))
    | comment text => exact balanced_comment _
    | empty | leave => exact balanced_nil

/-- What spells the tokens of a form has a compact layout, which spells them too. -/
theorem compactText_of_spells {form : Form} {text : List Char} (h : Spells text form.tokens) :
    ∃ out, Layout.compactText text = .ok out ∧ Spells out form.tokens := by
  obtain ⟨placed, hscan, hplaced⟩ := spells_iff.1 h
  have hlaid : LaysOut [] form.tokens := by
    simpa using balanced_tokens form [] [] laysOut_nil
  obtain ⟨out, hout⟩ := hlaid {} placed rfl hplaced
  have hproper : ∀ token ∈ placed.map Prod.snd, token.Proper := hplaced ▸ h.proper
  refine ⟨out, bind_eq_ok.2 ⟨placed, hscan, hout⟩, ?_⟩
  rw [← hplaced]
  exact (layOut_spells hproper hout).1

/-- A form whose print spells its tokens is laid out, and so are its tokens. -/
theorem layout_of_spells {form : Form} {raw : List Char} (hraw : form.rawText = .ok raw)
    (h : Spells raw form.tokens) : ∃ text placed, form.print = .ok (String.ofList raw) ∧
      Layout.compact.apply (String.ofList raw) = .ok text ∧ Token.scan text.toList = .ok placed ∧
      placed.map Prod.snd = form.tokens := by
  obtain ⟨out, hout, hspells⟩ := compactText_of_spells h
  obtain ⟨placed, hscan, hplaced⟩ := spells_iff.1 hspells
  refine ⟨String.ofList out, placed, ?_, ?_, ?_, hplaced⟩
  · rw [print, hraw]
    rfl
  · rw [Layout.apply, String.toList_ofList, hout]
    rfl
  · rw [String.toList_ofList]
    exact hscan

end Form

end ScriptForms
