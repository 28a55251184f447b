import ScriptForms.Proofs.Agreement.Convert
import ScriptForms.Proofs.Form.Subform

/-!
# Scopes decide qualification and nothing else

Under two scopes a script fails for the same reason, or has forms that differ only in that a name of
the script is qualified under one scope and not under the other.

* `Form.QualifiedUnder`: forms that differ in this way.
* `Comparison.qualification`: the comparison of two scopes.
* `Node.toProgram_scopes`: the programs of a script under two scopes.
-/

namespace ScriptForms

namespace Form

/-- Forms that are the same but for the qualification of some of the names: a name that only the
scope on the right knows is qualified on the right, and the other way round. -/
inductive QualifiedUnder (left right : Scope) (names : List String) : Form → Form → Prop
  | atom {form : Form} (h : form.parts = []) : QualifiedUnder left right names form form
  | gained {name : String} (hm : name ∈ names) (hl : left name = false) (hr : right name = true) :
      QualifiedUnder left right names (.symbol name) (.symbol (hostName name))
  | lost {name : String} (hm : name ∈ names) (hl : left name = true) (hr : right name = false) :
      QualifiedUnder left right names (.symbol (hostName name)) (.symbol name)
  | list {forms others : List Form}
      (h : List.Forall₂ (QualifiedUnder left right names) forms others) :
      QualifiedUnder left right names (.list forms) (.list others)
  | vector {forms others : List Form}
      (h : List.Forall₂ (QualifiedUnder left right names) forms others) :
      QualifiedUnder left right names (.vector forms) (.vector others)
  | hashMap {forms others : List Form}
      (h : List.Forall₂ (QualifiedUnder left right names) forms others) :
      QualifiedUnder left right names (.hashMap forms) (.hashMap others)
  | program {forms others : List Form}
      (h : List.Forall₂ (QualifiedUnder left right names) forms others) :
      QualifiedUnder left right names (.program forms) (.program others)
  | mapEntry {key key' value value' : Form} (hk : QualifiedUnder left right names key key')
      (hv : QualifiedUnder left right names value value') :
      QualifiedUnder left right names (.mapEntry key value) (.mapEntry key' value')
  | tagged {tag : String} {form other : Form} (h : QualifiedUnder left right names form other) :
      QualifiedUnder left right names (.tagged tag form) (.tagged tag other)

variable {left right : Scope} {names : List String} {form other : Form}

theorem QualifiedUnder.isMarker_eq (h : QualifiedUnder left right names form other) :
    form.isMarker = other.isMarker := by
  cases h <;> rfl

theorem eq_of_forall₂ {r : Form → Form → Prop} {forms others : List Form}
    (h : List.Forall₂ r forms others) (heq : ∀ form ∈ forms, ∀ other, r form other → form = other) :
    forms = others := by
  have hboth := (List.forall₂_and_left forms others).2 ⟨heq, h⟩
  rw [← List.forall₂_eq_eq_eq]
  exact hboth.imp fun _ _ hform => hform.1 _ hform.2

/-- Where the scopes agree on the names, there is no difference. -/
theorem QualifiedUnder.eq_of_agree (hagree : ∀ name ∈ names, left name = right name)
    (h : QualifiedUnder left right names form other) : form = other := by
  -- On the form and not on the relation, which holds of lists of forms inside of itself.
  induction form using induction_on_parts generalizing other with
  | h form ih =>
    cases h with
    | atom _ => rfl
    | gained hm hl hr | lost hm hl hr =>
      have hsame := hagree _ hm
      simp [hl, hr] at hsame
    | list h | vector h | hashMap h | program h =>
      rw [eq_of_forall₂ h fun part hp other hpart => ih part hp hpart]
    | mapEntry hk hv => rw [ih _ (by simp [parts]) hk, ih _ (by simp [parts]) hv]
    | tagged h => rw [ih _ (by simp [parts]) h]

theorem qualifiedUnder_identifier {name : String} (hm : name ∈ names) (context : Context) :
    QualifiedUnder left right names (Rule.identifier left name context)
      (Rule.identifier right name context) := by
  unfold Rule.identifier
  split
  · -- Only here does the scope matter, and only if the context asks for it.
    cases context.checkGlobal <;> cases hl : left name <;> cases hr : right name <;>
      simp only [Bool.true_and, Bool.false_and, Bool.false_eq_true, if_true, if_false]
    all_goals first | exact .atom rfl | exact .gained hm hl hr | exact .lost hm hl hr
  · exact .atom rfl
  · exact .atom rfl
  · exact .atom rfl

end Form

open Form

/-- The comparison of two scopes on trees that refer to the given names. -/
def Comparison.qualification (left right : Scope) (names : List String) : Comparison where
  left := left
  right := right
  name := (· ∈ Rule.receiver :: Rule.placeReceiver :: names)
  word := fun _ => True
  pattern := fun _ => True
  commentLine := fun _ => True
  Related := QualifiedUnder left right (Rule.receiver :: Rule.placeReceiver :: names)
  receivers := fun _ hm => ⟨List.mem_append_left names hm, trivial⟩
  identifier := fun hm _ context => qualifiedUnder_identifier hm context
  symbol := fun _ => .atom rfl
  keyword := fun _ => .atom rfl
  number := fun _ => .atom rfl
  string := fun _ => .atom rfl
  boolean := fun _ => .atom rfl
  regex := fun _ _ => .atom rfl
  comment := fun _ => .atom rfl
  marker := fun {form} h => .atom (by cases form <;> first | rfl | cases h)
  list := .list
  vector := .vector
  hashMap := .hashMap
  mapEntry := .mapEntry
  hostTagged := .tagged
  isMarker_eq := QualifiedUnder.isMarker_eq

namespace Node

theorem coversScript_qualification {node : Node} (h : node.IsScript) (left right : Scope) :
    (Comparison.qualification left right node.names).CoversScript node where
  script := h
  texts := fun m hm =>
    { name := fun _ ht =>
        List.mem_cons_of_mem _ (List.mem_cons_of_mem _ (List.mem_filterMap.2 ⟨m, hm, ht⟩))
      word := fun _ _ => trivial
      pattern := fun _ _ => trivial
      comment := fun _ _ => trivial }

/-- Under two scopes a script fails for the same reason, or has forms that differ only in the
qualification of names that the scopes disagree on. Scopes that agree on the names of the script and
of the receivers give the same result. -/
theorem toProgram_scopes (node : Node) (h : node.IsScript) (left right : Scope) :
    Agree (QualifiedUnder left right (Rule.receiver :: Rule.placeReceiver :: node.names))
        (node.toProgram left) (node.toProgram right) ∧
      ((∀ name ∈ Rule.receiver :: Rule.placeReceiver :: node.names, left name = right name) →
        node.toProgram left = node.toProgram right) := by
  have hagree :
      Agree (QualifiedUnder left right (Rule.receiver :: Rule.placeReceiver :: node.names))
        (node.toProgram left) (node.toProgram right) := by
    refine (Comparison.agree_toProgram (coversScript_qualification h left right)).imp ?_
    rintro form other ⟨forms, others, hforms, rfl, rfl⟩
    exact .program hforms
  refine ⟨hagree, fun hsame => ?_⟩
  exact (hagree.imp fun _ _ hforms => hforms.eq_of_agree hsame).eq

/-- The script `console.log(console)`. -/
def consoleScript : Node :=
  .program [.expressionStatement (.callExpression
    (.memberExpression (.identifier "console") (.identifier "log") false)
    [.identifier "console"]) []]

/-- The form of `consoleScript` if `console` as a receiver is written in the given way. -/
def consoleForm (receiver : String) : Form :=
  .program [.list [.symbol ".log", .symbol receiver, .symbol "console"]]

/-- Whether `console` is a host name decides how the receiver of the method is written, and not how
the argument is. -/
theorem toProgram_consoleScript :
    consoleScript.IsScript ∧
      consoleScript.toProgram (· == "console") = .ok (consoleForm "js/console") ∧
      consoleScript.toProgram (fun _ => false) = .ok (consoleForm "console") ∧
      Agree (QualifiedUnder (· == "console") (fun _ => false)
          (Rule.receiver :: Rule.placeReceiver :: consoleScript.names))
        (consoleScript.toProgram (· == "console")) (consoleScript.toProgram fun _ => false) ∧
      consoleScript.toProgram (· == "alert") = consoleScript.toProgram fun _ => false := by
  have hscript : consoleScript.IsScript := ⟨rfl, by unfold Grammatical; decide⟩
  refine ⟨hscript, rfl, rfl, (toProgram_scopes _ hscript _ _).1, ?_⟩
  exact (toProgram_scopes _ hscript _ _).2 (by decide)

end Node

end ScriptForms
