import ScriptForms.Proofs.Form.Subform

/-!
# The free names of a form

A symbol refers to what the innermost list around it binds under its name. The lists that bind names
are functions, `let`, `catch` and `this-as`; a `let` binds its names one after the other, and a
definition does not refer to the name that it defines.

* `Form.refersTo`: whether a name occurs free in a form.
* `Form.refersTo_call`: lists that bind nothing.
* `Form.exists_refersTo_of_list`: a free name of a list is free in one of its items.
-/

namespace ScriptForms.Form

mutual

/-- Whether a name occurs free in a form. -/
def refersTo (name : String) : Form → Bool
  | .symbol text => text == name
  | .list (.symbol "this-as" :: .symbol bound :: body) => bound != name && anyRefersTo name body
  | .list (.symbol "catch" :: kind :: .symbol bound :: body) =>
    refersTo name kind || bound != name && anyRefersTo name body
  | .list (.symbol "fn" :: .vector params :: body) =>
    params.all (·.symbol? != some name) && anyRefersTo name body
  | .list (.symbol "fn" :: .symbol self :: .vector params :: body) =>
    self != name && params.all (·.symbol? != some name) && anyRefersTo name body
  | .list (.symbol "defn" :: .symbol self :: .vector params :: body) =>
    self != name && params.all (·.symbol? != some name) && anyRefersTo name body
  | .list (.symbol "def" :: .symbol _ :: value) => anyRefersTo name value
  | .list (.symbol "let" :: .vector bindings :: body) =>
    letRefersTo name (anyRefersTo name body) bindings
  | .list children | .vector children | .hashMap children | .program children =>
    anyRefersTo name children
  | .mapEntry key value => refersTo name key || refersTo name value
  | .tagged _ form => refersTo name form
  | _ => false

/-- Whether a name occurs free in one of several forms. -/
def anyRefersTo (name : String) : List Form → Bool
  | [] => false
  | form :: forms => refersTo name form || anyRefersTo name forms

/-- Whether a name occurs free in a `let`, given its bindings and whether the name occurs free in
its body. A binding holds in the bindings after it and in the body. -/
def letRefersTo (name : String) (inBody : Bool) : List Form → Bool
  | .symbol bound :: value :: bindings =>
    refersTo name value || bound != name && letRefersTo name inBody bindings
  | _ => inBody

end

/-- The words at the head of lists that bind or define a name. -/
def bindingHeads : List String := ["this-as", "catch", "fn", "defn", "def", "let"]

variable {name : String}

@[simp] theorem anyRefersTo_eq (name : String) (forms : List Form) :
    anyRefersTo name forms = forms.any (refersTo name) := by
  induction forms with
  | nil => simp [anyRefersTo]
  | cons form forms ih => simp [anyRefersTo, ih]

@[simp] theorem refersTo_symbol (name text : String) :
    refersTo name (.symbol text) = (text == name) := by
  simp [refersTo]

/-- The receiver is bound by the list that names it. -/
@[simp] theorem refersTo_thisAs (name bound : String) (form : Form) :
    refersTo name (.thisAs bound form) = (bound != name && refersTo name form) := by
  simp [thisAs, call, refersTo]

/-- A list that binds nothing refers to what its items refer to. -/
theorem refersTo_call {head : String} (h : head ∉ bindingHeads) (name : String)
    (args : List Form) :
    refersTo name (.call head args) = (head == name || args.any (refersTo name)) := by
  have hne : ∀ word ∈ bindingHeads, ∀ rest, symbol head :: args ≠ symbol word :: rest := by
    rintro word hword rest heq
    cases heq
    exact h hword
  rw [call, refersTo]
  · simp
  -- The clauses above this one are about lists with one of those words in front.
  all_goals
    intros
    rename_i heq
    exact hne _ (by decide) _ heq

example : refersTo "a" (call "let" [.vector [.symbol "a", .symbol "b"], .symbol "a"]) = false ∧
    refersTo "a" (call "let" [.vector [.symbol "b", .symbol "a"], .symbol "b"]) = true := ⟨rfl, rfl⟩

theorem exists_refersTo_of_let {inBody : Bool} :
    ∀ {bindings : List Form}, letRefersTo name inBody bindings →
      inBody ∨ ∃ binding ∈ bindings, refersTo name binding
  | [], h => .inl (by simpa [letRefersTo] using h)
  | [_], h => .inl (by simpa [letRefersTo] using h)
  | first :: value :: bindings, h => by
    cases first with
    | symbol bound =>
      simp only [letRefersTo, Bool.or_eq_true, Bool.and_eq_true] at h
      rcases h with h | h
      · exact .inr ⟨value, by simp, h⟩
      · rcases exists_refersTo_of_let h.2 with h | ⟨binding, hm, h⟩
        · exact .inl h
        · exact .inr ⟨binding, by simp [hm], h⟩
    | _ => exact .inl (by simpa [letRefersTo] using h)

/-- What is free in a list is free in one of its items. -/
theorem exists_refersTo_of_list {children : List Form} (h : refersTo name (.list children)) :
    ∃ child ∈ children, refersTo name child := by
  have hany : ∀ body : List Form, body ⊆ children → anyRefersTo name body →
      ∃ child ∈ children, refersTo name child := by
    intro body hsub hbody
    simp only [anyRefersTo_eq, List.any_eq_true] at hbody
    obtain ⟨child, hm, hchild⟩ := hbody
    exact ⟨child, hsub hm, hchild⟩
  -- Each kind of list looks into some of its items only.
  generalize hform : Form.list children = form at h
  unfold refersTo at h
  split at h <;> cases hform
  · rw [Bool.and_eq_true] at h
    exact hany _ (fun _ hm => by simp [hm]) h.2
  · rename_i kind bound body
    rw [Bool.or_eq_true, Bool.and_eq_true] at h
    rcases h with h | h
    · exact ⟨kind, by simp, h⟩
    · exact hany _ (fun _ hm => by simp [hm]) h.2
  iterate 3
    rw [Bool.and_eq_true] at h
    exact hany _ (fun _ hm => by simp [hm]) h.2
  · exact hany _ (fun _ hm => by simp [hm]) h
  · rename_i bindings body
    rcases exists_refersTo_of_let h with h | ⟨binding, hm, hbinding⟩
    · exact hany _ (fun _ hm => by simp [hm]) h
    · refine ⟨.vector bindings, by simp, ?_⟩
      simp only [refersTo, anyRefersTo_eq, List.any_eq_true]
      exact ⟨binding, hm, hbinding⟩
  · exact hany _ (fun _ hm => hm) h
  · cases h

end ScriptForms.Form
