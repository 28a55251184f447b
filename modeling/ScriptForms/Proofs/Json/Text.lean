import ScriptForms.Proofs.Form.Literal
import ScriptForms.Proofs.Json.Value
import ScriptForms.Proofs.Source.Escape

/-!
# The text of a document

A document can be read off its text. No text of a document goes on as the text of another one, so
that in an array or an object the end of every item is known: the item itself says where it ends,
and a comma or a line break follows it.

* `Json.quote_append_inj`: a string literal in front of any text.
* `Json.prettyAt_append_inj`: a document in front of any text.
* `Json.pretty_injective`: different documents have different texts.
-/

namespace ScriptForms.Json

open Token

/-! ### String literals -/

theorem quoteBody_injective : Function.Injective quoteBody := fun first second h => by
  have hread := congrArg Source.unescape h
  rwa [Source.unescape_eq_of_writes (Source.writes_quoteBody first),
    Source.unescape_eq_of_writes (Source.writes_quoteBody second)] at hread

/-- A string literal ends at its closing quote, and has one value. -/
theorem quote_append_inj {first second rest others : List Char}
    (h : quote first ++ rest = quote second ++ others) : first = second ∧ rest = others := by
  have hinside : ∀ text, Inside (quoteBody text) := fun text =>
    inside_flatMap fun c _ => inside_quoteChar c
  have hends : ∀ text tail, stringBody (quoteBody text ++ '"' :: tail) =
      some (quoteBody text ++ ['"'], tail) := by
    intro text tail
    rw [hinside text]
    rfl
  have hbody : quoteBody first ++ '"' :: rest = quoteBody second ++ '"' :: others := by
    simpa [quote] using h
  have hread := congrArg stringBody hbody
  rw [hends, hends, Option.some.injEq, Prod.mk.injEq] at hread
  exact ⟨quoteBody_injective (List.append_cancel_right hread.1), hread.2⟩

/-! ### Documents -/

/-- Whether the text of a document shows which document it is, whatever follows it. -/
def Ends (document : Json) : Prop :=
  ∀ (level : Nat) (other : Json) (rest others : List Char),
    prettyAt level document ++ rest = prettyAt level other ++ others →
      document = other ∧ rest = others

/-- The first character of the text of a document. -/
def mark : Json → Char
  | .null => 'n'
  | .bool true => 't'
  | .bool false => 'f'
  | .str _ => '"'
  | .arr _ => '['
  | .obj _ => '\x7b'

theorem head?_prettyAt (level : Nat) (document : Json) :
    (prettyAt level document).head? = some document.mark := by
  cases document with
  | bool value => cases value <;> rfl
  | arr items => cases items <;> simp [prettyAt, mark]
  | obj fields => cases fields <;> simp [prettyAt, mark]
  | _ => rfl

/-- Documents of the same kind. -/
inductive SameKind : Json → Json → Prop where
  | null : SameKind .null .null
  | bool (value : Bool) : SameKind (.bool value) (.bool value)
  | str (value other : String) : SameKind (.str value) (.str other)
  | arr (items others : List Json) : SameKind (.arr items) (.arr others)
  | obj (fields others : List (String × Json)) : SameKind (.obj fields) (.obj others)

theorem sameKind_of_mark_eq {document other : Json} (h : document.mark = other.mark) :
    SameKind document other := by
  rcases document with _ | (_ | _) | value | items | fields <;>
    rcases other with _ | (_ | _) | second | others | others
  all_goals first | constructor | exact absurd h (by simp [mark])

/-- The first character tells documents of different kinds apart. -/
theorem sameKind_of_append_eq {level : Nat} {document other : Json} {rest others : List Char}
    (h : prettyAt level document ++ rest = prettyAt level other ++ others) :
    SameKind document other := by
  have hhead := congrArg List.head? h
  rw [List.head?_append, List.head?_append, head?_prettyAt, head?_prettyAt] at hhead
  exact sameKind_of_mark_eq (Option.some.inj hhead)

/-- Behind the first item of an array, a line break without a comma ends the items. -/
theorem prettyItems_append_inj {level : Nat} {items : List Json}
    (hitems : ∀ item ∈ items, Ends item) {second : List Json} {rest others : List Char}
    (h : prettyItems level items ++ '\n' :: rest = prettyItems level second ++ '\n' :: others) :
    items = second ∧ rest = others := by
  induction items generalizing second with
  | nil =>
    cases second with
    | nil => simpa [prettyItems] using h
    | cons other second => simp [prettyItems] at h
  | cons item items ih =>
    cases second with
    | nil => simp [prettyItems] at h
    | cons other second =>
      rw [List.forall_mem_cons] at hitems
      simp only [prettyItems, List.cons_append, List.append_assoc, List.cons.injEq, true_and,
        List.append_cancel_left_eq] at h
      obtain ⟨rfl, htail⟩ := hitems.1 _ _ _ _ h
      obtain ⟨rfl, hrest⟩ := ih hitems.2 htail
      exact ⟨rfl, hrest⟩

/-- A field is its key and its value. -/
theorem prettyField_append_inj {level : Nat} {field other : String × Json} (hfield : Ends field.2)
    {rest others : List Char}
    (h : quote field.1.toList ++ ':' :: ' ' :: (prettyAt level field.2 ++ rest) =
      quote other.1.toList ++ ':' :: ' ' :: (prettyAt level other.2 ++ others)) :
    field = other ∧ rest = others := by
  obtain ⟨hkey, htail⟩ := quote_append_inj h
  simp only [List.cons.injEq, true_and] at htail
  obtain ⟨hvalue, hrest⟩ := hfield _ _ _ _ htail
  exact ⟨Prod.ext (String.toList_inj.1 hkey) hvalue, hrest⟩

/-- Behind the first field of an object, a line break without a comma ends the fields. -/
theorem prettyFields_append_inj {level : Nat} {fields : List (String × Json)}
    (hfields : ∀ field ∈ fields, Ends field.2) {second : List (String × Json)}
    {rest others : List Char}
    (h : prettyFields level fields ++ '\n' :: rest = prettyFields level second ++ '\n' :: others) :
    fields = second ∧ rest = others := by
  induction fields generalizing second with
  | nil =>
    cases second with
    | nil => simpa [prettyFields] using h
    | cons other second => simp [prettyFields] at h
  | cons field fields ih =>
    cases second with
    | nil => simp [prettyFields] at h
    | cons other second =>
      rw [List.forall_mem_cons] at hfields
      simp only [prettyFields, List.cons_append, List.append_assoc, List.cons.injEq, true_and,
        List.append_cancel_left_eq, List.nil_append] at h
      obtain ⟨rfl, htail⟩ := prettyField_append_inj hfields.1 h
      obtain ⟨rfl, hrest⟩ := ih hfields.2 htail
      exact ⟨rfl, hrest⟩

theorem ends_arr {items : List Json} (hitems : ∀ item ∈ items, Ends item) : Ends (.arr items) := by
  intro level other rest others h
  obtain ⟨second, rfl⟩ : ∃ second, other = .arr second := by
    cases sameKind_of_append_eq h
    exact ⟨_, rfl⟩
  cases items with
  | nil =>
    cases second with
    | nil => simpa [prettyAt] using h
    | cons other second => simp [prettyAt, newline] at h
  | cons item items =>
    cases second with
    | nil => simp [prettyAt, newline] at h
    | cons other second =>
      rw [List.forall_mem_cons] at hitems
      simp only [prettyAt, newline, List.cons_append, List.append_assoc, List.cons.injEq, true_and,
        List.append_cancel_left_eq] at h
      obtain ⟨rfl, htail⟩ := hitems.1 _ _ _ _ h
      obtain ⟨rfl, hrest⟩ := prettyItems_append_inj hitems.2 htail
      exact ⟨rfl, by simpa using hrest⟩

theorem ends_obj {fields : List (String × Json)} (hfields : ∀ field ∈ fields, Ends field.2) :
    Ends (.obj fields) := by
  intro level other rest others h
  obtain ⟨second, rfl⟩ : ∃ second, other = .obj second := by
    cases sameKind_of_append_eq h
    exact ⟨_, rfl⟩
  cases fields with
  | nil =>
    cases second with
    | nil => simpa [prettyAt] using h
    | cons other second => simp [prettyAt, newline] at h
  | cons field fields =>
    cases second with
    | nil => simp [prettyAt, newline] at h
    | cons other second =>
      rw [List.forall_mem_cons] at hfields
      simp only [prettyAt, newline, List.cons_append, List.append_assoc, List.cons.injEq, true_and,
        List.append_cancel_left_eq, List.nil_append] at h
      obtain ⟨rfl, htail⟩ := prettyField_append_inj hfields.1 h
      obtain ⟨rfl, hrest⟩ := prettyFields_append_inj hfields.2 htail
      exact ⟨rfl, by simpa using hrest⟩

/-- Every document can be read off its text, whatever follows it. -/
theorem ends (document : Json) : Ends document := by
  induction document using induction_on with
  | arr items ih => exact ends_arr ih
  | obj fields ih => exact ends_obj ih
  | null =>
    intro level other rest others h
    cases sameKind_of_append_eq h
    exact ⟨rfl, List.append_cancel_left h⟩
  | bool value =>
    intro level other rest others h
    cases sameKind_of_append_eq h
    exact ⟨rfl, List.append_cancel_left h⟩
  | str value =>
    intro level other rest others h
    cases sameKind_of_append_eq h with
    | str _ second =>
      rw [prettyAt, prettyAt] at h
      obtain ⟨hvalue, hrest⟩ := quote_append_inj h
      exact ⟨by rw [String.toList_inj.1 hvalue], hrest⟩

/-- Different documents have different texts. -/
theorem pretty_injective : Function.Injective pretty := fun first second h => by
  have htext : prettyAt 0 first ++ [] = prettyAt 0 second ++ [] := by
    rw [List.append_nil, List.append_nil]
    exact String.ofList_injective h
  exact (ends first 0 second [] [] htext).1

end ScriptForms.Json
