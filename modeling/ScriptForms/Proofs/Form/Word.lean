import ScriptForms.Proofs.Node.Text
import ScriptForms.Rule.Convert
import ScriptForms.Source.Operator

/-!
# The words that rules write

Besides the names of a tree, its forms hold words that the rules write of their own accord: the
heads of lists, operators, and names of properties and of the host environment.

* `captureHead`: the head of a list that binds the receiver.
* `Form.hosted?`: the name that a word gives as one of the host environment.
* `IsPlainWord`: the words that are neither about the receiver nor about the host environment.
* `Node.ruleWord?`: the word that is written for the operator or the tag of a node.
-/

namespace ScriptForms

/-! ### The receiver -/

/-- The head of a list that binds the receiver. -/
def captureHead : String := "this-as"

/-- The words about the receiver: its names, and the word that binds it. -/
def receiverWords : List String := [Rule.receiver, Rule.placeReceiver, captureHead]

/-! ### The host environment -/

/-- The names of the host environment that the rules write of their own accord, and the names of the
receiver. -/
def reservedHosts : List String :=
  ["Object", "Object.assign", "require", "exports", Rule.receiver, Rule.placeReceiver]

namespace Form

/-- The name that a text gives as one of the host environment, unless it is reserved. -/
def hosted? (text : String) : Option String :=
  match text.toList with
  | 'j' :: 's' :: '/' :: name =>
    if reservedHosts.contains (String.ofList name) then none else some (String.ofList name)
  | _ => none

theorem hosted?_hostName (name : String) :
    hosted? (hostName name) = if reservedHosts.contains name then none else some name := by
  simp [hosted?, hostName]

theorem hosted?_eq_some {text name : String} (h : hosted? text = some name) :
    text = hostName name := by
  unfold hosted? at h
  split at h
  · rename_i letters htext
    split at h
    · cases h
    · obtain rfl := Option.some.inj h
      rw [← String.toList_inj, htext]
      simp [hostName]
  · cases h

/-- A text that starts with another letter gives no name. -/
theorem hosted?_of_head {text : String} (h : text.toList.head? ≠ some 'j') :
    hosted? text = none := by
  unfold hosted?
  split
  · rename_i htext
    rw [htext] at h
    exact absurd rfl h
  · rfl

end Form

/-! ### Plain words -/

open Form

theorem ne_captureHead_of_not_mem {text : String} (h : text ∉ receiverWords) :
    text ≠ captureHead := by
  rintro rfl
  exact h (by decide)

/-- A text that starts with another letter is no word about the receiver. -/
theorem not_mem_receiverWords_of_head {text : String} (h : text.toList.head? ≠ some 't') :
    text ∉ receiverWords := by
  intro hm
  simp only [receiverWords, List.mem_cons, List.not_mem_nil, or_false] at hm
  rcases hm with rfl | rfl | rfl <;> exact h rfl

theorem hostName_not_mem_receiverWords (name : String) : hostName name ∉ receiverWords :=
  not_mem_receiverWords_of_head (by simp [hostName])

/-- Words that neither stand for the receiver nor bind it, and give no name of the host
environment. -/
def IsPlainWord (text : String) : Prop :=
  text ∉ receiverWords ∧ hosted? text = none

instance (text : String) : Decidable (IsPlainWord text) := inferInstanceAs (Decidable (_ ∧ _))

variable {text : String}

/-- A word that starts with another sign than the words about the receiver and the host
environment. -/
theorem isPlainWord_of_head (h : text.toList.head? ∉ [some 't', some 'j']) : IsPlainWord text := by
  simp only [List.mem_cons, List.not_mem_nil, or_false, not_or] at h
  exact ⟨not_mem_receiverWords_of_head h.1, hosted?_of_head h.2⟩

theorem isPlainWord_getterName (name : String) : IsPlainWord (getterName name) :=
  isPlainWord_of_head (by simp [getterName])

theorem isPlainWord_dotGetterName (name : String) : IsPlainWord (dotGetterName name) :=
  isPlainWord_of_head (by simp [dotGetterName])

theorem isPlainWord_methodName (name : String) : IsPlainWord (methodName name) :=
  isPlainWord_of_head (by simp [methodName])

/-- What the rules write of the host environment of their own accord is plain. -/
theorem isPlainWord_hostName {name : String} (h : name ∈ reservedHosts) :
    IsPlainWord (hostName name) := by
  revert name
  decide

namespace Node

/-- The word that is written for the operator or the tag of a node. -/
def ruleWord? : Node → Option String
  | .unaryExpression operator _ | .binaryExpression operator _ _
  | .logicalExpression operator _ _ => some (Rule.operatorName operator)
  | .assignmentExpression operator _ _ => some (Rule.arithmeticOperator operator)
  | .jsxIdentifier name => if isComponentName name then some name else none
  | _ => none

/-- The tag of a component starts with a capital. -/
theorem isPlainWord_of_isComponentName {name : String} (h : isComponentName name) :
    IsPlainWord name := by
  have hcapital : ∀ c ∈ ['t', 'j'], Text.isCapital c = false := by simp [Text.isCapital]
  refine isPlainWord_of_head fun hm => ?_
  unfold isComponentName at h
  split at h
  · rename_i c rest htext
    rw [hcapital c (by simpa [htext] using hm)] at h
    cases h
  · cases h

/-- The operators of the language and the tags of components are written as plain words. -/
theorem isPlainWord_ruleWord {node : Node} (h : node.isWorded) {word : String}
    (hw : word ∈ node.ruleWord?) : IsPlainWord word := by
  cases node with
  | unaryExpression operator argument =>
    have htable : ∀ operator ∈ unaryOperators, IsPlainWord (Rule.operatorName operator) := by decide
    obtain rfl := Option.some.inj hw
    exact htable operator (by simpa [isWorded] using h)
  | binaryExpression operator left right | logicalExpression operator left right =>
    have htable : ∀ operator ∈ Source.binaryOperators.map Prod.fst,
        IsPlainWord (Rule.operatorName operator) := by decide
    obtain rfl := Option.some.inj hw
    exact htable operator (by simpa only [isWorded, List.contains_iff_mem] using h)
  | assignmentExpression operator left right =>
    have htable : ∀ operator ∈ Source.assignmentOperators,
        IsPlainWord (Rule.arithmeticOperator operator) := by decide
    obtain rfl := Option.some.inj hw
    exact htable operator (by simpa only [isWorded, List.contains_iff_mem] using h)
  | jsxIdentifier name =>
    simp only [ruleWord?, Option.mem_def, Option.ite_none_right_eq_some, Option.some.injEq] at hw
    obtain ⟨hcomponent, rfl⟩ := hw
    exact isPlainWord_of_isComponentName hcomponent
  | _ => cases hw

end Node

end ScriptForms
