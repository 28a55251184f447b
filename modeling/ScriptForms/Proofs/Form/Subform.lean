import Mathlib.Algebra.Ring.Nat
import Mathlib.Data.List.Basic
import ScriptForms.Form.Basic

/-!
# The forms inside a form

* `Form.parts`: the forms directly inside a form.
* `Form.subforms`: every form of a tree, the tree itself first.
* `Form.descendants`: every form of a tree but its root.
-/

namespace ScriptForms.Form

/-- Whether a form is the root of a file. -/
def isProgram : Form → Bool
  | .program _ => true
  | _ => false

/-- The forms directly inside a form. -/
def parts : Form → List Form
  | .list children | .vector children | .hashMap children | .program children => children
  | .mapEntry key value => [key, value]
  | .tagged _ form => [form]
  | _ => []

mutual

/-- Every form of a tree, the tree itself first. -/
def subforms : Form → List Form
  | .list children => .list children :: subformsAll children
  | .vector children => .vector children :: subformsAll children
  | .hashMap children => .hashMap children :: subformsAll children
  | .program children => .program children :: subformsAll children
  | .mapEntry key value => .mapEntry key value :: (key.subforms ++ value.subforms)
  | .tagged tag form => .tagged tag form :: form.subforms
  | form => [form]

/-- Every form of several trees. -/
def subformsAll : List Form → List Form
  | [] => []
  | form :: forms => form.subforms ++ subformsAll forms

end

/-- Every form of a tree but its root. -/
def descendants (form : Form) : List Form := form.parts.flatMap subforms

theorem subformsAll_eq (forms : List Form) : subformsAll forms = forms.flatMap subforms := by
  induction forms with
  | nil => simp [subformsAll]
  | cons form forms ih => simp [subformsAll, ih]

theorem subforms_eq (form : Form) : form.subforms = form :: form.descendants := by
  cases form <;> simp [subforms, descendants, parts, subformsAll_eq]

/-- What is counted among the forms of a tree is counted in its parts, and at its root. -/
theorem countP_subforms (p : Form → Bool) (form : Form) :
    form.subforms.countP p =
      (form.parts.map fun part => part.subforms.countP p).sum + if p form then 1 else 0 := by
  rw [subforms_eq, List.countP_cons, descendants, List.countP_flatMap]
  rfl

/-- What holds of every form of a tree holds of its root and of every form of its parts, and the
other way round. -/
theorem forall_subforms_iff {p : Form → Prop} {form : Form} :
    (∀ m ∈ form.subforms, p m) ↔ p form ∧ ∀ part ∈ form.parts, ∀ m ∈ part.subforms, p m := by
  rw [subforms_eq, List.forall_mem_cons]
  refine and_congr_right fun _ => ⟨fun h part hp m hm => ?_, fun h m hm => ?_⟩
  · exact h m (List.mem_flatMap.2 ⟨part, hp, hm⟩)
  · obtain ⟨part, hp, hm⟩ := List.mem_flatMap.1 hm
    exact h part hp m hm

theorem sizeOf_part {part form : Form} (h : part ∈ form.parts) : sizeOf part < sizeOf form := by
  cases form with
  | list children | vector children | hashMap children | program children =>
    have hsize : sizeOf part < sizeOf children := List.sizeOf_lt_of_mem h
    simp only [list.sizeOf_spec, vector.sizeOf_spec, hashMap.sizeOf_spec, program.sizeOf_spec]
    omega
  | mapEntry key value =>
    rw [mapEntry.sizeOf_spec]
    rcases List.mem_pair.1 h with rfl | rfl <;> omega
  | tagged tag form =>
    rw [List.mem_singleton.1 h, tagged.sizeOf_spec]
    omega
  | _ => cases h

/-- A property holds of every form if it passes from the parts of a form to the form. -/
theorem induction_on_parts {motive : Form → Prop}
    (h : ∀ form : Form, (∀ part ∈ form.parts, motive part) → motive form) (form : Form) :
    motive form :=
  h form fun part hp =>
    have := sizeOf_part hp
    induction_on_parts h part
termination_by sizeOf form

end ScriptForms.Form
