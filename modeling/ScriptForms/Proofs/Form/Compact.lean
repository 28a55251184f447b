import ScriptForms.Proofs.Form.Serialization
import ScriptForms.Proofs.Form.Shape
import ScriptForms.Proofs.Token.Layout

/-!
# The compact layout of a printed form

A printed form is laid out anew from its tokens alone. For the forms of scripts the result can be
said in one pass over the form, without tokens: every form of a program stands on one line, its
items with one space between them.

* `Form.line`, `Form.page`: the text of a form on one line, and the lines of a program.
* `Form.Fits`: what may stand directly inside what, as far as lines go.
* `LayoutState.afterItem`, `Form.FillsLine`: wherever a form stands, its tokens add its line, and a
  layout stands behind an item then.
* `Form.print_compact`: the compact layout of a printed program is its page.
-/

namespace ScriptForms

open Token

/-! ### Lines -/

namespace Form

/-- Items between delimiters, with one space between two items. -/
def bracketed (bracket : Bracket) (items : List (List Char)) : List Char :=
  bracket.opening :: (spaced items ++ [bracket.closing])

mutual

/-- The text of a form on one line. -/
def line : Form → List Char
  | .symbol name => name.toList
  | .keyword value => ':' :: value.toList
  | .number raw => raw.toList
  | .string value => Json.quote value.toList
  | .boolean value => (if value then "true" else "false").toList
  | .regex pattern flags => regexText pattern.toList flags.toList
  | .list children => bracketed .round (lines children)
  | .vector children => bracketed .square (lines children)
  | .hashMap children => bracketed .curly (lines children)
  | .mapEntry key value => key.line ++ ' ' :: value.line
  | .tagged tag form => tag.toList ++ ' ' :: form.line
  | .comment text => Text.trimEnd ([';', ';', ' '] ++ text.toList)
  | .program _ | .empty | .leave => []

/-- The texts of the forms that are no markers. -/
def lines : List Form → List (List Char)
  | [] => []
  | form :: forms => if form.isMarker then lines forms else form.line :: lines forms

end

/-- The lines of a program, given its forms that are no markers: a comment stands right above what
follows it, and a blank line stands between a form and what follows it. -/
def page : List Form → List Char
  | [] => []
  | form :: forms =>
    form.line ++ '\n' :: ((if form.isComment || forms.isEmpty then [] else ['\n']) ++ page forms)

/-- The forms that are no markers. -/
def printed (forms : List Form) : List Form := forms.filter fun form => !form.isMarker

theorem printed_cons (form : Form) (forms : List Form) :
    printed (form :: forms) = if form.isMarker then printed forms else form :: printed forms := by
  rw [printed, List.filter_cons]
  cases form.isMarker <;> rfl

theorem lines_eq (forms : List Form) : lines forms = (printed forms).map line := by
  induction forms with
  | nil => rfl
  | cons form forms ih =>
    rw [lines, printed_cons, ih]
    split <;> rfl

theorem tokensAll_printed (forms : List Form) : tokensAll (printed forms) = tokensAll forms := by
  induction forms with
  | nil => rfl
  | cons form forms ih =>
    rw [printed_cons]
    split
    · rename_i hm
      rw [tokensAll, tokens_eq_nil_of_isMarker hm, ih, List.nil_append]
    · rw [tokensAll, tokensAll, ih]

/-- A page ends with the end of a line, unless nothing is printed. -/
theorem getLast?_page (forms : List Form) :
    (page forms).getLast? = if forms.isEmpty then none else some '\n' := by
  induction forms with
  | nil => rfl
  | cons form forms ih =>
    rw [page, List.getLast?_append_cons]
    cases forms with
    | nil => simp [page]
    | cons next forms => simp [ih, List.getLast?_cons]

end Form

/-! ### Items -/

namespace LayoutState

/-- The state behind an item that started in the state. -/
def afterItem (state : LayoutState) : LayoutState :=
  { state with
    last := if state.stack.isEmpty then .form else state.last, spaceDue := true, glued := false }

variable {state : LayoutState} {offset : Nat}

theorem afterItem_afterItem (state : LayoutState) :
    state.afterItem.afterItem = state.afterItem := by
  unfold afterItem
  cases state.stack <;> rfl

/-- Inside a form, a space is due behind an item. -/
theorem gap_afterItem (h : state.stack ≠ []) : state.afterItem.gap = [' '] := by
  unfold gap afterItem
  simp [h]

/-- An atom that is no reader tag is an item. -/
theorem add_atom {text : List Char} (h : isReaderTag text = false) :
    state.add offset (.atom text) = .ok (state.gap ++ text, state.afterItem) := by
  unfold add afterItem
  simp [h]

/-- The state behind a reader tag. -/
def afterTag (state : LayoutState) : LayoutState :=
  { state with spaceDue := true, glued := state.stack.isEmpty }

theorem add_tag {text : List Char} (h : isReaderTag text) (offset : Nat) :
    state.add offset (.atom text) = .ok (state.gap ++ text, state.afterTag) := by
  unfold add afterTag
  simp [h]

/-- A space is due behind a tag: at the top level since the tag is glued to its form. -/
theorem gap_afterTag (state : LayoutState) : state.afterTag.gap = [' '] := by
  unfold gap afterTag
  cases state.stack <;> rfl

theorem afterItem_afterTag (state : LayoutState) : state.afterTag.afterItem = state.afterItem := rfl

/-- The state behind a comment. -/
def afterComment (state : LayoutState) : LayoutState :=
  { state with
    last := if state.stack.isEmpty then .comment else state.last, spaceDue := false,
    glued := false }

theorem add_comment (state : LayoutState) (offset : Nat) (text : List Char) :
    state.add offset (.comment text) = .ok (state.gap ++ text ++ ['\n'], state.afterComment) := rfl

@[simp] theorem gap_opened (state : LayoutState) (b : Bracket) (offset : Nat) :
    (state.opened b offset).gap = [] := rfl

end LayoutState

/-! ### Forms -/

namespace Form

open LayoutState

/-- Wherever the form stands, its tokens add its line. An entry stands inside a map. -/
def FillsLine (form : Form) : Prop :=
  ∀ (state : LayoutState) {placed : List (Nat × Token)}, (form.isEntry → state.stack ≠ []) →
    placed.map Prod.snd = form.tokens → state.Adds placed (state.gap ++ form.line) state.afterItem

theorem fillsLine_atom {form : Form} {text : List Char} (ht : form.tokens = [.atom text])
    (hl : form.line = text) (h : isReaderTag text = false) : form.FillsLine := by
  intro state placed _ hplaced
  rw [ht] at hplaced
  obtain ⟨⟨offset, _⟩, rfl, rfl⟩ := List.map_eq_singleton_iff.1 hplaced
  rw [hl]
  exact adds_singleton (add_atom h)

/-- Items inside a form stand on one line, with one space between two items. -/
theorem adds_items {items : List Form} (h : ∀ item ∈ items, item.FillsLine) (state : LayoutState)
    (hs : state.stack ≠ []) {placed : List (Nat × Token)}
    (hp : placed.map Prod.snd = tokensAll items) :
    state.Adds placed (if items.isEmpty then [] else state.gap ++ spaced (items.map line))
      (if items.isEmpty then state else state.afterItem) := by
  induction items generalizing state placed with
  | nil =>
    obtain rfl := List.map_eq_nil_iff.1 hp
    exact adds_nil state
  | cons item items ih =>
    rw [List.forall_mem_cons] at h
    obtain ⟨first, later, rfl, hfirst, hlater⟩ := List.map_eq_append_iff.1 hp
    have hitem := h.1 state (fun _ => hs) hfirst
    have hitems := ih h.2 state.afterItem hs hlater
    rw [gap_afterItem hs, afterItem_afterItem] at hitems
    have hall := hitem.append hitems
    cases items with
    | nil => simpa using hall
    | cons next items => simpa [spaced_cons] using hall

/-- Items between delimiters stand on one line; of the state, they change what is due. -/
theorem adds_between {children : List Form} (h : ∀ item ∈ printed children, item.FillsLine)
    (state : LayoutState) (b : Bracket) (offset : Nat) {placed : List (Nat × Token)}
    (hp : placed.map Prod.snd = tokensAll children) :
    ∃ next, (state.opened b offset).Adds placed (spaced (lines children)) next ∧
      next.stack = (b, offset) :: state.stack ∧ next.last = state.last := by
  have hitems := adds_items h (state.opened b offset) (by simp [opened])
    (hp.trans (tokensAll_printed children).symm)
  rw [gap_opened, List.nil_append] at hitems
  rw [lines_eq]
  cases hprinted : printed children with
  | nil =>
    rw [hprinted] at hitems
    exact ⟨_, hitems, rfl, rfl⟩
  | cons item items =>
    rw [hprinted] at hitems
    exact ⟨_, hitems, rfl, rfl⟩

/-- A form with delimiters stands on one line if its items do. -/
theorem fillsLine_bracketed {form : Form} {b : Bracket} {children : List Form}
    (ht : form.tokens = .opening b :: tokensAll children ++ [.closing b])
    (hl : form.line = bracketed b (lines children))
    (h : ∀ item ∈ printed children, item.FillsLine) : form.FillsLine := by
  intro state placed _ hplaced
  rw [ht, List.cons_append] at hplaced
  obtain ⟨start, inner, stop, rest, rfl, hinner, hrest⟩ := exists_group_of_map_eq hplaced
  obtain rfl := List.map_eq_nil_iff.1 hrest
  obtain ⟨next, hitems, hstack, hlast⟩ := adds_between h state b start hinner
  have hgroup := hitems.group hstack stop
  have hclosed : next.closed state.stack = state.afterItem := by
    unfold closed afterItem
    rw [hlast]
  rwa [List.append_nil, hl, bracketed, ← hclosed]

/-! ### What may stand where -/

/-- The second form may stand directly inside the first. -/
structure Fits (parent child : Form) : Prop where
  program : ¬child.isProgram
  comment : child.isComment → parent.isProgram
  marker : child.isMarker → parent.isProgram ∨ parent.isVector
  entry : child.isEntry → parent.isMap
  tagged : child.isWellTagged

instance (parent child : Form) : Decidable (Fits parent child) :=
  decidable_of_iff (¬child.isProgram ∧ (child.isComment → parent.isProgram) ∧
      (child.isMarker → parent.isProgram ∨ parent.isVector) ∧ (child.isEntry → parent.isMap) ∧
      child.isWellTagged)
    ⟨fun h => ⟨h.1, h.2.1, h.2.2.1, h.2.2.2.1, h.2.2.2.2⟩,
      fun h => ⟨h.program, h.comment, h.marker, h.entry, h.tagged⟩⟩

/-- Everything inside the form stands where it fits. -/
def IsFitting (form : Form) : Prop :=
  ∀ parent ∈ form.subforms, ∀ child ∈ parent.parts, Fits parent child

instance (form : Form) : Decidable form.IsFitting :=
  inferInstanceAs (Decidable (∀ parent ∈ form.subforms, ∀ child ∈ parent.parts, Fits parent child))

theorem isFitting_iff {form : Form} :
    form.IsFitting ↔ ∀ part ∈ form.parts, Fits form part ∧ part.IsFitting :=
  forall_subforms_iff.trans ⟨fun h part hp => ⟨h.1 part hp, h.2 part hp⟩,
    fun h => ⟨fun part hp => (h part hp).1, fun part hp => (h part hp).2⟩⟩

/-- What stands where it may in the form of a script fits there. -/
theorem Placed.fits {parent child : Form} (h : Placed parent child) : Fits parent child where
  program := h.program
  comment := h.comment
  marker hm := by
    refine (h.marker hm).imp_right fun he => ?_
    cases parent with
    | vector children => rfl
    | _ => cases he
  entry := h.entry.1
  tagged := h.tagged

/-- The forms of a script are settled, so they fit. -/
theorem Settled.isFitting {form : Form} (h : form.Settled) : form.IsFitting :=
  fun parent hp child hc => (h parent hp child hc).fits

theorem IsFitting.not_isProgram {form : Form} (h : form.IsFitting) :
    ∀ m ∈ form.descendants, ¬m.isProgram := by
  induction form using induction_on_parts with
  | h form ih =>
    intro m hm
    obtain ⟨part, hp, hm⟩ := List.mem_flatMap.1 hm
    obtain ⟨hfits, hpart⟩ := isFitting_iff.1 h part hp
    rw [subforms_eq, List.mem_cons] at hm
    rcases hm with rfl | hm
    · exact hfits.program
    · exact ih part hp hpart m hm

/-- The text of the form itself is not read as a reader tag. -/
def HasPlainText : Form → Prop
  | .symbol text | .number text => text.toList.head? ≠ some '#'
  | _ => True

instance : (form : Form) → Decidable form.HasPlainText
  | .symbol text | .number text => inferInstanceAs (Decidable (text.toList.head? ≠ some '#'))
  | .keyword _ | .string _ | .boolean _ | .regex .. | .list _ | .vector _ | .hashMap _
  | .mapEntry .. | .tagged .. | .program _ | .comment _ | .empty | .leave => .isTrue trivial

theorem isReaderTag_eq_false {text : List Char} (h : text.head? ≠ some '#') :
    isReaderTag text = false := by
  unfold isReaderTag
  split
  · rfl
  · exact absurd rfl h
  · rfl

/-! ### Every form fills a line -/

/-- The form stands on a line that it may share. -/
structure IsInline (form : Form) : Prop where
  program : ¬form.isProgram
  comment : ¬form.isComment
  marker : ¬form.isMarker
  tagged : form.isWellTagged

theorem Fits.isInline {parent child : Form} (h : Fits parent child) (hc : ¬child.isComment)
    (hm : ¬child.isMarker) : child.IsInline :=
  ⟨h.program, hc, hm, h.tagged⟩

theorem Fits.isInline_of_not_isProgram {parent child : Form} (h : Fits parent child)
    (hp : ¬parent.isProgram) (hm : ¬child.isMarker) : child.IsInline :=
  h.isInline (fun hc => hp (h.comment hc)) hm

/-- The two parts of an entry stand on one line. -/
theorem fillsLine_mapEntry {key value : Form} (h : ∀ part ∈ [key, value], part.FillsLine) :
    (Form.mapEntry key value).FillsLine := by
  intro state placed hentry hplaced
  have htokens : (Form.mapEntry key value).tokens = tokensAll [key, value] := by
    simp [Form.tokens, tokensAll]
  have hitems := adds_items h state (hentry rfl) (hplaced.trans htokens)
  simpa [line, spaced_cons] using hitems

/-- A host array or object stands on the line of its tag. -/
theorem fillsLine_tagged {form : Form} (hv : form.isVector || form.isMap) (h : form.FillsLine) :
    (Form.tagged "#js" form).FillsLine := by
  intro state placed _ hplaced
  obtain ⟨⟨offset, _⟩, later, rfl, rfl, hlater⟩ := List.map_eq_cons_iff.1 hplaced
  have hentry : ¬form.isEntry := by
    cases form with
    | mapEntry key value => cases hv
    | _ => exact Bool.false_ne_true
  have hform := h state.afterTag (fun he => absurd he hentry) hlater
  rw [gap_afterTag, afterItem_afterTag] at hform
  have htag : isReaderTag "#js".toList := rfl
  have hall := Adds.cons (add_tag htag offset) hform
  rwa [List.append_assoc] at hall

/-- Every form inside a program stands on one line. -/
theorem fillsLine {form : Form} (h : form.IsInline) (hf : form.IsFitting)
    (ht : ∀ m ∈ form.subforms, m.HasPlainText) : form.FillsLine := by
  induction form using induction_on_parts with
  | h form ih =>
    obtain ⟨htext, hparts⟩ := forall_subforms_iff.1 ht
    have hfits := isFitting_iff.1 hf
    have hinner : ∀ part ∈ form.parts, ¬part.isMarker → part.FillsLine := fun part hp hm =>
      ih part hp ((hfits part hp).1.isInline_of_not_isProgram h.program hm) (hfits part hp).2
        (hparts part hp)
    have hprinted : ∀ part ∈ printed form.parts, part.FillsLine := by
      intro part hp
      obtain ⟨hp, hm⟩ := List.mem_filter.1 hp
      exact hinner part hp (by simpa using hm)
    cases form with
    | symbol text | number text => exact fillsLine_atom rfl rfl (isReaderTag_eq_false htext)
    | keyword value | string value | regex pattern flags => exact fillsLine_atom rfl rfl rfl
    | boolean value => exact fillsLine_atom rfl rfl (by cases value <;> rfl)
    | list children | vector children | hashMap children =>
      exact fillsLine_bracketed rfl rfl hprinted
    | mapEntry key value =>
      refine fillsLine_mapEntry fun part hp => hinner part hp fun hm => ?_
      rcases (hfits part hp).1.marker hm with hprogram | hvector
      · cases hprogram
      · cases hvector
    | tagged tag form =>
      obtain ⟨htag, hv⟩ := (Bool.and_eq_true _ _).mp h.tagged
      obtain rfl : tag = "#js" := of_decide_eq_true htag
      refine fillsLine_tagged hv (hinner form (by simp [parts]) fun hm => ?_)
      cases form with
      | empty | leave => cases hv
      | _ => cases hm
    | comment text => exact absurd rfl h.comment
    | program children => exact absurd rfl h.program
    | empty | leave => exact absurd rfl h.marker

/-! ### Pages -/

/-- What stands between what a layout ends with and the items that are left, or its end. -/
def separation (state : LayoutState) (items : List Form) : List Char :=
  if state.last = .form then '\n' :: if items.isEmpty then [] else ['\n'] else []

/-- A comment stands on a line of its own. -/
theorem adds_comment {form : Form} (h : form.isComment) (state : LayoutState)
    {placed : List (Nat × Token)} (hp : placed.map Prod.snd = form.tokens) :
    state.Adds placed (state.gap ++ form.line ++ ['\n']) state.afterComment := by
  cases form with
  | comment text =>
    obtain ⟨⟨offset, _⟩, rfl, rfl⟩ := List.map_eq_singleton_iff.1 hp
    exact adds_singleton (add_comment state offset _)
  | _ => cases h

/-- The items of a program are laid out as a page, from wherever a layout stands. -/
theorem layOut_items {items : List Form}
    (h : ∀ item ∈ items, ¬item.isMarker ∧ ¬item.isEntry ∧ (¬item.isComment → item.FillsLine))
    (state : LayoutState) (hs : state.stack = []) (hg : state.glued = false)
    {placed : List (Nat × Token)} (hp : placed.map Prod.snd = tokensAll items) :
    state.layOut placed = .ok (separation state items ++ page items) := by
  induction items generalizing state placed with
  | nil =>
    obtain rfl := List.map_eq_nil_iff.1 hp
    rw [layOut, hs]
    simp [separation, page]
  | cons item items ih =>
    rw [List.forall_mem_cons] at h
    obtain ⟨⟨hmarker, hentry, hfills⟩, hitems⟩ := h
    obtain ⟨first, later, rfl, hfirst, hlater⟩ := List.map_eq_append_iff.1 hp
    have hgap : state.gap = separation state (item :: items) := by
      simp [LayoutState.gap, separation, hs, hg]
    by_cases hc : item.isComment
    · rw [adds_comment hc state hfirst, ih hitems state.afterComment hs rfl hlater, hgap]
      simp [page, hc, separation, afterComment, hs, Functor.map, Except.map]
    · have hadds := hfills hc state (fun he => absurd he hentry) hfirst
      rw [hadds, ih hitems state.afterItem hs rfl hlater, hgap]
      simp [page, hc, separation, afterItem, hs, Functor.map, Except.map]

/-- A program whose forms fit where they stand is printed, and the compact layout of the print is
the page of the program, which ends a line unless nothing is printed. Its texts can be read back,
and none is read as a reader tag. -/
theorem print_compact {forms : List Form} (hf : (Form.program forms).IsFitting)
    (hl : (Form.program forms).Legible) (ht : ∀ m ∈ (Form.program forms).subforms, m.HasPlainText) :
    (∃ raw, (Form.program forms).print = .ok raw ∧
      Layout.compact.apply raw = .ok (String.ofList (page (printed forms)))) ∧
    (page (printed forms)).getLast? = if (printed forms).isEmpty then none else some '\n' := by
  refine ⟨?_, getLast?_page _⟩
  obtain ⟨raw, hraw⟩ := (succeeds_rawText (.program forms)).2 hf.not_isProgram
  obtain ⟨placed, hscan, hplaced⟩ := spells_iff.1 (spells_rawText hl hraw)
  have hitems : ∀ item ∈ printed forms,
      ¬item.isMarker ∧ ¬item.isEntry ∧ (¬item.isComment → item.FillsLine) := by
    intro item hi
    obtain ⟨hp, hm⟩ := List.mem_filter.1 hi
    replace hm : ¬item.isMarker := by simpa using hm
    obtain ⟨hfits, hinner⟩ := isFitting_iff.1 hf item hp
    have hplain := (forall_subforms_iff.1 ht).2 item hp
    exact ⟨hm, fun he => Bool.false_ne_true (hfits.entry he),
      fun hc => fillsLine (hfits.isInline hc hm) hinner hplain⟩
  have hlaid := layOut_items hitems {} rfl rfl (hplaced.trans (tokensAll_printed forms).symm)
  refine ⟨String.ofList raw, by rw [print, hraw]; rfl, ?_⟩
  rw [Layout.apply, String.toList_ofList, Layout.compactText, hscan, ok_bind, hlaid]
  rfl

/-- Forms with markers, nested lists, a host object and comments. -/
def noteForms : List Form :=
  [.comment "a ", .empty,
    .list [.symbol "f", .list [], .vector [.keyword "b", .leave, .string "; c"]],
    .comment "", .tagged "#js" (.hashMap [.mapEntry (.keyword "d") (.regex "\"" "g")]), .leave]

theorem print_compact_noteForms : ∃ raw, (Form.program noteForms).print = .ok raw ∧
    Layout.compact.apply raw =
      .ok ";; a\n(f () [:b \"; c\"])\n\n;;\n#js \x7b:d #\"\\\"\"\x7d\n" := by
  have hf : (Form.program noteForms).IsFitting := by decide
  have hl : (Form.program noteForms).Legible := by decide +kernel
  have ht : ∀ m ∈ (Form.program noteForms).subforms, m.HasPlainText := by decide
  obtain ⟨raw, hprint, hlaid⟩ := (print_compact hf hl ht).1
  refine ⟨raw, hprint, hlaid.trans (congrArg Except.ok ?_)⟩
  decide +kernel

end Form

end ScriptForms
