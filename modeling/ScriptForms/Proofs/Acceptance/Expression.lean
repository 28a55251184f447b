import ScriptForms.Proofs.Acceptance.Basic
import ScriptForms.Rule.Access
import ScriptForms.Rule.Element
import ScriptForms.Rule.Literal

/-!
# Which expressions have forms

One lemma per rule for compound literals, accesses, assignments, calls and elements: the rule
succeeds on a grammatical tree iff the tree is accepted.
-/

namespace ScriptForms.Rule

open Node

variable {visit : Visit}

/-! ### Literals -/

theorem succeeds_templateItems {texts : List String} {expressions : List Node}
    (hlen : expressions.length ≤ texts.length) (he : ∀ e ∈ expressions, Decides visit e) :
    Succeeds (templateItems visit texts expressions) ↔ ∀ e ∈ expressions, e.Accepted := by
  induction texts generalizing expressions with
  | nil =>
    rw [List.length_nil, Nat.le_zero, List.length_eq_zero_iff] at hlen
    simp [templateItems, hlen]
  | cons text texts ih =>
    cases expressions with
    | nil =>
      have ih := @ih [] (by simp) (by simp)
      simp [templateItems, ih]
    | cons expression expressions =>
      rw [List.forall_mem_cons] at he
      have ih := ih (by simpa using hlen) he.2
      simp [templateItems, ih, he.1 .value]

theorem succeeds_template {texts : List String} {expressions : List Node}
    (hv : DecidesBelow visit (Node.templateLiteral texts expressions).size)
    (hg : (Node.templateLiteral texts expressions).Grammatical) :
    Succeeds (template visit texts expressions) ↔
      (Node.templateLiteral texts expressions).Accepted := by
  have hfits := (grammatical_iff.1 hg).1
  simp only [fits, Bool.and_eq_true, List.all_eq_true, beq_iff_eq] at hfits
  have he : ∀ e ∈ expressions, Decides visit e := fun e hm =>
    hv.child hg hm (standsAlone_of_isExpression (hfits.1 e hm))
  have hlen : expressions.length ≤ texts.length := by omega
  rw [accepted_iff (.templateLiteral ..)]
  simp [template, isRefused, children, succeeds_templateItems hlen he]

theorem accepted_spreadElement (argument : Node) :
    (Node.spreadElement argument).Accepted ↔ argument.Accepted := by
  rw [accepted_iff]
  simp [isRefused, children]

theorem succeeds_arrayElement {element : Node} (he : element.isExpression ∨ element.isSpread)
    {n : Nat} (hv : DecidesBelow visit n) (hsize : element.size < n) (hg : element.Grammatical)
    (parts : ArrayParts) : Succeeds (arrayElement visit parts element) ↔ element.Accepted := by
  unfold arrayElement
  split
  · rename_i argument
    have hfits := (grammatical_iff.1 hg).1
    have ha : Decides visit argument := (hv.mono (Nat.le_of_lt hsize)).child hg
      (by simp [children]) (standsAlone_of_isExpression (by simpa [fits] using hfits))
    simp [ha .value, accepted_spreadElement]
  · rename_i hne
    have ha := hv element hsize hg
      (standsAlone_of_isExpression (isExpression_of_ne_spread he hne)) .value
    simp [ha]

theorem succeeds_array {elements : List Node}
    (hv : DecidesBelow visit (Node.arrayExpression elements).size)
    (hg : (Node.arrayExpression elements).Grammatical) :
    Succeeds (array visit elements) ↔ (Node.arrayExpression elements).Accepted := by
  have hfits := (grammatical_iff.1 hg).1
  simp only [fits, List.all_eq_true, Bool.or_eq_true] at hfits
  have hfold : Succeeds (elements.foldlM (arrayElement visit) {}) ↔ ∀ e ∈ elements, e.Accepted :=
    succeeds_foldlM_iff (fun e hm =>
      succeeds_arrayElement (hfits e hm) hv (size_of_child hm) (hg.child hm)) {}
  rw [accepted_iff (.arrayExpression ..)]
  simp [array, isRefused, children, hfold]

theorem succeeds_propertyKey {key : Node} (h : key.isKey) :
    Succeeds (propertyKey key) ↔ key.Accepted := by
  cases key with
  | identifier name => simp [propertyKey, accepted_identifier]
  | unsupported kind text => simp [propertyKey, not_accepted_unsupported]
  | stringLiteral value =>
    rw [accepted_iff]
    simp [propertyKey, isRefused, children]
  | numericLiteral raw =>
    rw [accepted_iff]
    simp [propertyKey, isRefused, children]
  | _ => cases h

theorem succeeds_objectProperty {key value : Node} {computed shorthand : Bool}
    (hv : DecidesBelow visit (Node.objectProperty key value computed shorthand).size)
    (hg : (Node.objectProperty key value computed shorthand).Grammatical) :
    Succeeds (objectEntry visit (.objectProperty key value computed shorthand)) ↔
      (Node.objectProperty key value computed shorthand).Accepted := by
  have hfits := (grammatical_iff.1 hg).1
  simp only [fits, Bool.and_eq_true] at hfits
  have hvalue : Decides visit value :=
    hv.child hg (by simp [children]) (standsAlone_of_isExpression hfits.2)
  rw [accepted_iff (.objectProperty ..), objectEntry, succeeds_check]
  simp only [isRefused, children]
  -- A key that is computed is refused before it is looked at.
  refine and_congr_right fun hcomputed => ?_
  have hkey : Succeeds (propertyKey key) ↔ key.Accepted :=
    succeeds_propertyKey (by simpa [keyFits, hcomputed] using hfits.1)
  simp [hkey, hvalue .value]

theorem succeeds_objectMethod {kind : MethodKind} {key : Node} {params : List Node} {body : Node}
    {computed : Bool}
    (hv : DecidesBelow visit (Node.objectMethod kind key params body computed).size)
    (hg : (Node.objectMethod kind key params body computed).Grammatical) :
    Succeeds (objectEntry visit (.objectMethod kind key params body computed)) ↔
      (Node.objectMethod kind key params body computed).Accepted := by
  have hfits := (grammatical_iff.1 hg).1
  simp only [fits, Bool.and_eq_true, List.all_eq_true] at hfits
  have hbody : Decides visit body :=
    hv.child hg (by simp [children]) (standsAlone_of_isBlock hfits.2)
  rw [accepted_iff (.objectMethod ..), objectEntry, succeeds_check]
  simp only [isRefused, children]
  refine and_congr_right fun hcheck => ?_
  have hcomputed : computed = false := by
    cases computed <;> simp at hcheck ⊢
  have hkey : Succeeds (propertyKey key) ↔ key.Accepted :=
    succeeds_propertyKey (by simpa [keyFits, hcomputed] using hfits.1.1)
  rw [succeeds_bind_iff (p := (∀ p ∈ params, p.Accepted) ∧ body.Accepted) fun _ _ => by
    simp [succeeds_function hfits.1.2 hbody], hkey]
  simp [or_imp, forall_and]

theorem succeeds_objectMember {member : Node} (hm : member.isObjectMember)
    (hv : DecidesBelow visit member.size) (hg : member.Grammatical) (parts : ObjectParts) :
    Succeeds (objectMember visit parts member) ↔ member.Accepted := by
  cases member with
  | spreadElement argument =>
    have hfits := (grammatical_iff.1 hg).1
    have ha : Decides visit argument := hv.child hg (by simp [children])
      (standsAlone_of_isExpression (by simpa [fits] using hfits))
    simp [objectMember, ha .value, accepted_spreadElement]
  | objectProperty key value computed shorthand =>
    rw [← succeeds_objectProperty hv hg]
    simp [objectMember]
  | objectMethod kind key params body computed =>
    rw [← succeeds_objectMethod hv hg]
    simp [objectMember]
  | unsupported kind text => simp [objectMember, objectEntry, not_accepted_unsupported]
  | _ => cases hm

theorem succeeds_object {properties : List Node}
    (hv : DecidesBelow visit (Node.objectExpression properties).size)
    (hg : (Node.objectExpression properties).Grammatical) :
    Succeeds (object visit properties) ↔ (Node.objectExpression properties).Accepted := by
  have hfits := (grammatical_iff.1 hg).1
  simp only [fits, List.all_eq_true] at hfits
  have hfold : Succeeds (properties.foldlM (objectMember visit) {}) ↔
      ∀ m ∈ properties, m.Accepted :=
    succeeds_foldlM_iff (fun m hm =>
      succeeds_objectMember (hfits m hm) (hv.descend hm) (hg.child hm)) {}
  rw [accepted_iff (.objectExpression ..)]
  simp [object, isRefused, children, hfold]

/-! ### Reading -/

theorem succeeds_getter {object property : Node} (ho : Decides visit object)
    (hp : Decides visit property) (hi : property.isIdentifier) :
    Succeeds (getter visit object property) ↔ object.Accepted := by
  have hproperty := (hp (.named .dotGetter)).2 (accepted_of_isIdentifier hi)
  simp [getter, hproperty, ho .callee]

theorem succeeds_element {object key : Node} (ho : Decides visit object) (hk : Decides visit key) :
    Succeeds (element visit object key) ↔ object.Accepted ∧ key.Accepted := by
  simp [element, ho .callee, hk .value]

theorem succeeds_dotted {target : Node} {properties : List Node} (ht : Decides visit target)
    (hp : ∀ p ∈ properties, Decides visit p) (hi : ∀ p ∈ properties, p.isIdentifier) :
    Succeeds (dotted visit target properties) ↔ target.Accepted := by
  unfold dotted
  split
  · rename_i property
    exact succeeds_getter ht (hp property (by simp)) (hi property (by simp))
  · have hsteps : ∀ p ∈ properties, Succeeds (visit p (.named .getter)) := fun p hm =>
      (hp p hm _).2 (accepted_of_isIdentifier (hi p hm))
    simpa [ht .callee] using fun _ => hsteps

theorem succeeds_plainMember {object property : Node} {computed : Bool}
    (hv : DecidesBelow visit (Node.memberExpression object property computed).size)
    (hg : (Node.memberExpression object property computed).Grammatical) :
    Succeeds (plainMember visit (.memberExpression object property computed)) ↔
      (Node.memberExpression object property computed).Accepted := by
  have hfits := (grammatical_iff.1 hg).1
  simp only [fits, Bool.and_eq_true] at hfits
  cases computed with
  | true =>
    have ho : Decides visit object :=
      hv.child hg (by simp [children]) (standsAlone_of_isExpression hfits.1)
    have hk : Decides visit property :=
      hv.child hg (by simp [children]) (standsAlone_of_isExpression (by simpa using hfits.2))
    rw [plainMember, succeeds_element ho hk, accepted_memberExpression]
  | false =>
    obtain ⟨ht, hi⟩ := dotChain_fits hg rfl
    have htarget := hv.descendant hg (dotChain_target_descendants object property)
      (standsAlone_of_isExpression ht)
    have hproperties := fun p hm => hv.descendant hg (dotChain_properties_mem _ p hm)
      (standsAlone_of_isIdentifier (hi p hm))
    rw [plainMember, succeeds_dotted htarget hproperties hi, accepted_dotChain hg]

/-- A chain of accesses that starts at `this` has a form iff the chain that starts at a name has
one, and both are accepted alike. -/
theorem succeeds_plainMember_rebind {object property : Node} {computed : Bool} (name : String)
    (hv : DecidesBelow visit (Node.memberExpression object property computed).size)
    (hg : (Node.memberExpression object property computed).Grammatical) :
    Succeeds (plainMember visit ((Node.memberExpression object property computed).rebindReceiver
      name)) ↔ (Node.memberExpression object property computed).Accepted := by
  have hsize := size_rebindReceiver name (.memberExpression object property computed)
  have hgrammar := hg.rebindReceiver name
  rw [← accepted_rebindReceiver name]
  rw [rebindReceiver] at hsize hgrammar ⊢
  rw [← hsize] at hv
  exact succeeds_plainMember hv hgrammar

theorem succeeds_member {object property : Node} {computed : Bool}
    (hv : DecidesBelow visit (Node.memberExpression object property computed).size)
    (hg : (Node.memberExpression object property computed).Grammatical) :
    Succeeds (member visit (.memberExpression object property computed)) ↔
      (Node.memberExpression object property computed).Accepted := by
  unfold member
  split
  · rw [← succeeds_plainMember_rebind receiver hv hg]
    simp
  · exact succeeds_plainMember hv hg

/-! ### Writing -/

theorem succeeds_compound (operator : String) (current value : Form) :
    Succeeds (compound operator current value) ↔ ¬isLogicalAssignment operator := by
  unfold compound
  split <;> simp_all [isLogicalAssignment]

theorem succeeds_assignPlace (operator : String) (place value : Form) :
    Succeeds (assignPlace operator place value) ↔ ¬isLogicalAssignment operator := by
  rw [← succeeds_compound operator place value]
  simp [assignPlace]

/-- An assignment to a target succeeds iff the target is a name or an access, the operator always
assigns, and the target is accepted. -/
theorem succeeds_assignTo {n : Nat} (hv : DecidesBelow visit n) {target : Node}
    (hsize : target.size < n) (hg : target.Grammatical) (operator : String) (value : Form) :
    Succeeds (assignTo visit operator target value) ↔
      (target.isIdentifier || target.isAccess) ∧ ¬isLogicalAssignment operator ∧
        target.Accepted := by
  have hbelow := hv.mono (Nat.le_of_lt hsize)
  unfold assignTo
  split
  · rename_i name
    have ht := hv _ hsize hg rfl .value
    rw [succeeds_bind_iff fun place _ => succeeds_assignPlace operator place value,
      succeeds_one, ht]
    simp [isIdentifier, and_comm]
  · rename_i object property
    have hfits := (grammatical_iff.1 hg).1
    simp only [fits, Bool.and_eq_true, Bool.false_eq_true, if_false] at hfits
    have ho : Decides visit object :=
      hbelow.child hg (by simp [children]) (standsAlone_of_isExpression hfits.1)
    have hp : Decides visit property :=
      hbelow.child hg (by simp [children]) (standsAlone_of_isIdentifier hfits.2)
    rw [succeeds_bind_iff fun place _ => succeeds_assignPlace operator place value,
      succeeds_getter ho hp hfits.2, accepted_memberExpression,
      and_iff_left (accepted_of_isIdentifier hfits.2)]
    simp [isAccess, and_comm]
  · rename_i object key
    have hfits := (grammatical_iff.1 hg).1
    simp only [fits, Bool.and_eq_true, if_true] at hfits
    have ho : Decides visit object :=
      hbelow.child hg (by simp [children]) (standsAlone_of_isExpression hfits.1)
    have hk : Decides visit key :=
      hbelow.child hg (by simp [children]) (standsAlone_of_isExpression hfits.2)
    rw [accepted_memberExpression, and_comm (a := ¬isLogicalAssignment operator), and_assoc]
    simp [isAccess, ho .callee, hk .value, succeeds_compound]
  · rename_i hname hdotted hcomputed
    have hplace : ¬(target.isIdentifier || target.isAccess) := by
      cases target with
      | identifier name => exact absurd rfl (hname name)
      | memberExpression object property computed =>
        cases computed with
        | true => exact absurd rfl (hcomputed object property)
        | false => exact absurd rfl (hdotted object property)
      | _ => simp [isIdentifier, isAccess]
    exact iff_of_false (not_succeeds_error _) fun h => hplace h.1

theorem succeeds_plainAssignment {n : Nat} (hv : DecidesBelow visit n) {target right : Node}
    (hsize : target.size < n) (hg : target.Grammatical) (hr : Decides visit right)
    (operator : String) (shown : Node) :
    Succeeds (plainAssignment visit operator shown target right) ↔
      ¬(operator ≠ "=" ∧ ¬target.isRepeatablePlace) ∧ right.Accepted ∧
        (target.isIdentifier || target.isAccess) ∧ ¬isLogicalAssignment operator ∧
        target.Accepted := by
  rw [plainAssignment, succeeds_check]
  refine and_congr_right fun _ => ?_
  rw [succeeds_bind_iff fun value _ => succeeds_assignTo hv hsize hg operator value, succeeds_one,
    hr .value]

theorem isIdentifier_or_isAccess_rebindReceiver {left : Node} (h : left.isReceiverRooted)
    (name : String) :
    ((left.rebindReceiver name).isIdentifier || (left.rebindReceiver name).isAccess) =
      (left.isIdentifier || left.isAccess) := by
  cases left <;> simp_all [isReceiverRooted, isAccess, rebindReceiver]

theorem succeeds_assignment {operator : String} {left right : Node}
    (hv : DecidesBelow visit (Node.assignmentExpression operator left right).size)
    (hg : (Node.assignmentExpression operator left right).Grammatical) :
    Succeeds (assignment visit operator left right) ↔
      (Node.assignmentExpression operator left right).Accepted := by
  have hfits := (grammatical_iff.1 hg).1
  simp only [fits, Bool.and_eq_true] at hfits
  have hl : left ∈ (Node.assignmentExpression operator left right).children := by simp [children]
  have hr : Decides visit right :=
    hv.child hg (by simp [children]) (standsAlone_of_isExpression hfits.2)
  have hsize := size_of_child hl
  have hgl := hg.child hl
  have hparts : Succeeds (assignment visit operator left right) ↔
      ¬(operator ≠ "=" ∧ ¬left.assignedPlace.isRepeatablePlace) ∧ right.Accepted ∧
        (left.isIdentifier || left.isAccess) ∧ ¬isLogicalAssignment operator ∧ left.Accepted := by
    unfold assignment assignedPlace
    split
    · rename_i hroot
      rw [← isIdentifier_or_isAccess_rebindReceiver hroot placeReceiver,
        ← accepted_rebindReceiver placeReceiver left]
      have hrebound := succeeds_plainAssignment hv
        (by rw [size_rebindReceiver placeReceiver left]; exact hsize)
        (hgl.rebindReceiver placeReceiver) hr operator left
      simpa [placeReceiver] using hrebound
    · exact succeeds_plainAssignment hv hsize hgl hr operator left
  -- What is left are the same conditions in another order.
  rw [hparts, accepted_iff (.assignmentExpression ..)]
  simp only [isRefused, refusesTarget, children, List.forall_mem_cons, Bool.or_eq_true,
    Bool.and_eq_true, Bool.not_eq_true', decide_eq_true_eq, not_or, Bool.not_eq_false]
  constructor
  · rintro ⟨hplace, hright, htarget, hlogical, hleft⟩
    exact ⟨⟨⟨htarget, hlogical⟩, by simpa using hplace⟩, hleft, hright, by simp⟩
  · rintro ⟨⟨⟨htarget, hlogical⟩, hplace⟩, hleft, hright, -⟩
    exact ⟨by simpa using hplace, hright, htarget, hlogical, hleft⟩

theorem succeeds_unary {operator : String} {argument : Node}
    (hv : DecidesBelow visit (Node.unaryExpression operator argument).size)
    (hg : (Node.unaryExpression operator argument).Grammatical) :
    Succeeds (unary visit operator argument) ↔
      (Node.unaryExpression operator argument).Accepted := by
  have hfits := (grammatical_iff.1 hg).1
  simp only [fits] at hfits
  have hc : argument ∈ (Node.unaryExpression operator argument).children := by simp [children]
  have ha := hv.child hg hc (standsAlone_of_isExpression hfits)
  rw [accepted_iff (.unaryExpression ..)]
  unfold unary
  split
  · rename_i hop
    simp [isRefused, children, hop, ha .value]
  · rename_i hop
    have hbelow := hv.descend hc
    have hga := hg.child hc
    have hfitsa := (grammatical_iff.1 hga).1
    -- The two ways to delete read the same object; a name as the key is always accepted.
    split
    · rename_i object name
      simp only [fits, Bool.and_eq_true] at hfitsa
      have ho : Decides visit object :=
        hbelow.child hga (by simp [children]) (standsAlone_of_isExpression hfitsa.1)
      simp [isRefused, children, isAccess, accepted_memberExpression, accepted_identifier,
        ho .callee]
    · rename_i object key computed _
      simp only [fits, Bool.and_eq_true] at hfitsa
      have ho : Decides visit object :=
        hbelow.child hga (by simp [children]) (standsAlone_of_isExpression hfitsa.1)
      have hk : Decides visit key := by
        refine hbelow.child hga (by simp [children]) ?_
        cases computed with
        | true => exact standsAlone_of_isExpression hfitsa.2
        | false => exact standsAlone_of_isIdentifier hfitsa.2
      simp [isRefused, children, isAccess, accepted_memberExpression, ho .callee, hk .value,
        and_comm]
    · rename_i hname hne
      have haccess : argument.isAccess = false := by
        cases argument with
        | memberExpression object key computed => exact absurd rfl (hne object key computed)
        | _ => rfl
      simp_all [isRefused]

/-! ### Calling -/

theorem succeeds_arguments {n : Nat} (hv : DecidesBelow visit n) {nodes : List Node}
    (hsize : ∀ a ∈ nodes, a.size < n) (hg : ∀ a ∈ nodes, a.Grammatical)
    (hfits : ∀ a ∈ nodes, a.isExpression ∨ a.isSpread) :
    Succeeds (arguments visit nodes) ↔ ArgumentsAccepted nodes := by
  rw [arguments, succeeds_mapM]
  refine forall₂_congr fun a hm => ?_
  unfold argument
  split
  · simp [isSpread]
  · rename_i hne
    have he := isExpression_of_ne_spread (hfits a hm) hne
    have ha := hv a (hsize a hm) (hg a hm) (standsAlone_of_isExpression he) .value
    simp [isSpread_of_isExpression he, ha]

theorem succeeds_callFront {n : Nat} (hv : DecidesBelow visit n) {callee : Node}
    (hsize : callee.size < n) (hg : callee.Grammatical) (he : callee.isExpression) :
    Succeeds (callFront visit callee) ↔ callee.Accepted := by
  have hbelow := hv.mono (Nat.le_of_lt hsize)
  have hfits := (grammatical_iff.1 hg).1
  unfold callFront
  split
  · rename_i object property
    simp only [fits, Bool.and_eq_true, Bool.false_eq_true, if_false] at hfits
    have ho : Decides visit object :=
      hbelow.child hg (by simp [children]) (standsAlone_of_isExpression hfits.1)
    have hp : Decides visit property :=
      hbelow.child hg (by simp [children]) (standsAlone_of_isIdentifier hfits.2)
    rw [accepted_memberExpression]
    simp [hp (.named .method), ho .callee, and_comm]
  · rename_i object key
    simp only [fits, Bool.and_eq_true, if_true] at hfits
    have ho : Decides visit object :=
      hbelow.child hg (by simp [children]) (standsAlone_of_isExpression hfits.1)
    have hk : Decides visit key :=
      hbelow.child hg (by simp [children]) (standsAlone_of_isExpression hfits.2)
    rw [accepted_memberExpression, ← succeeds_element ho hk]
    simp
  · have hcallee := hv callee hsize hg (standsAlone_of_isExpression he) .callee
    simp [hcallee]

theorem succeeds_callArguments {callee : Node} {nodes : List Node}
    (hv : DecidesBelow visit (Node.callExpression callee nodes).size)
    (hg : (Node.callExpression callee nodes).Grammatical) :
    Succeeds (arguments visit nodes) ↔ ArgumentsAccepted nodes := by
  have hfits := (grammatical_iff.1 hg).1
  simp only [fits, Bool.and_eq_true, List.all_eq_true, Bool.or_eq_true] at hfits
  have hm : ∀ a ∈ nodes, a ∈ (Node.callExpression callee nodes).children := by
    simp +contextual [children]
  exact succeeds_arguments hv (fun a h => size_of_child (hm a h)) (fun a h => hg.child (hm a h))
    hfits.2

theorem succeeds_call {callee : Node} {nodes : List Node}
    (hv : DecidesBelow visit (Node.callExpression callee nodes).size)
    (hg : (Node.callExpression callee nodes).Grammatical) :
    Succeeds (call visit callee nodes) ↔ (Node.callExpression callee nodes).Accepted := by
  have hfits := (grammatical_iff.1 hg).1
  simp only [fits, Bool.and_eq_true] at hfits
  have hc : callee ∈ (Node.callExpression callee nodes).children := by simp [children]
  have hargs := succeeds_callArguments hv hg
  have hplain : ∀ node : Node, node.size < (Node.callExpression callee nodes).size →
      node.Grammatical → node.isExpression → (Succeeds (plainCall visit node nodes) ↔
        node.Accepted ∧ ArgumentsAccepted nodes) := fun node hsize hgn he => by
    rw [plainCall, succeeds_bind_iff (p := ArgumentsAccepted nodes) fun _ _ => by simp [hargs],
      succeeds_callFront hv hsize hgn he]
  rw [accepted_callExpression]
  unfold call
  split
  · rw [← accepted_rebindReceiver receiver callee]
    have hrebound := hplain (callee.rebindReceiver receiver)
      (by rw [size_rebindReceiver]; exact size_of_child hc)
      ((hg.child hc).rebindReceiver receiver) (by rw [isExpression_rebindReceiver]; exact hfits.1)
    simpa using hrebound
  · exact hplain callee (size_of_child hc) (hg.child hc) hfits.1

/-- A later call of a chain has a form iff its arguments do: its receiver is the chain so far. -/
theorem succeeds_stage {object property : Node} {nodes : List Node}
    (hv : DecidesBelow visit
      (Node.callExpression (.memberExpression object property false) nodes).size)
    (hg : (Node.callExpression (.memberExpression object property false) nodes).Grammatical) :
    Succeeds (stage visit ⟨.memberExpression object property false, nodes⟩) ↔
      ArgumentsAccepted nodes := by
  have hc : Node.memberExpression object property false ∈
      (Node.callExpression (.memberExpression object property false) nodes).children := by
    simp [children]
  have hfits := (grammatical_iff.1 (hg.child hc)).1
  simp only [fits, Bool.and_eq_true, Bool.false_eq_true, if_false] at hfits
  have hp : Decides visit property := (hv.descend hc).child (hg.child hc) (by simp [children])
    (standsAlone_of_isIdentifier hfits.2)
  rw [stage, succeeds_bind_iff (p := ArgumentsAccepted nodes) fun _ _ => by
    simp [succeeds_callArguments hv hg], succeeds_one, hp (.named .method)]
  exact and_iff_right (accepted_of_isIdentifier hfits.2)

theorem succeeds_callExpression {callee : Node} {nodes : List Node}
    (hv : DecidesBelow visit (Node.callExpression callee nodes).size)
    (hg : (Node.callExpression callee nodes).Grammatical) :
    Succeeds (callExpression visit callee nodes) ↔
      (Node.callExpression callee nodes).Accepted := by
  obtain ⟨first, others, hchain, hlater⟩ := callChain_eq_cons callee nodes
  -- Every link is a call of the tree, so that each is decided as a call by itself would be.
  have hlink : ∀ link ∈ first :: others,
      DecidesBelow visit (Node.callExpression link.callee link.arguments).size ∧
        (Node.callExpression link.callee link.arguments).Grammatical := by
    intro link hl
    have hmem := callChain_mem (hchain ▸ hl)
    exact ⟨hv.mono (size_le_of_mem_subtrees hmem), hg.subtree hmem⟩
  unfold callExpression
  dsimp only
  split
  · rename_i start stages hpipeline hlinks
    obtain ⟨rfl, rfl⟩ := List.cons.inj (hchain.symm.trans hlinks)
    have hstart := hlink first (by simp)
    have hstages : Succeeds (others.mapM (stage visit)) ↔
        ∀ link ∈ others, ArgumentsAccepted link.arguments := by
      rw [succeeds_mapM]
      refine forall₂_congr fun link hl => ?_
      obtain ⟨object, property, hcallee⟩ := hlater link hl
      obtain ⟨hvl, hgl⟩ := hlink link (by simp [hl])
      obtain ⟨linkCallee, linkArguments⟩ := link
      dsimp only at hcallee
      subst hcallee
      exact succeeds_stage hvl hgl
    rw [← accepted_callChain hg hchain, List.forall_mem_cons, ← and_assoc,
      ← accepted_callExpression, ← succeeds_call hstart.1 hstart.2, ← hstages]
    exact succeeds_bind_iff fun _ _ => by simp
  · exact succeeds_call hv hg

theorem succeeds_newExpression {callee : Node} {nodes : List Node}
    (hv : DecidesBelow visit (Node.newExpression callee nodes).size)
    (hg : (Node.newExpression callee nodes).Grammatical) :
    Succeeds (newExpression visit callee nodes) ↔
      (Node.newExpression callee nodes).Accepted := by
  have hfits := (grammatical_iff.1 hg).1
  simp only [fits, Bool.and_eq_true, List.all_eq_true, Bool.or_eq_true] at hfits
  have hcallee : Decides visit callee :=
    hv.child hg (by simp [children]) (standsAlone_of_isExpression hfits.1)
  have hm : ∀ a ∈ nodes, a ∈ (Node.newExpression callee nodes).children := by
    simp +contextual [children]
  have hargs := succeeds_arguments hv (fun a h => size_of_child (hm a h))
    (fun a h => hg.child (hm a h)) hfits.2
  rw [newExpression, accepted_newExpression,
    succeeds_bind_iff (p := ArgumentsAccepted nodes) fun _ _ => by simp [hargs], succeeds_one,
    hcallee .callee]

/-! ### Elements -/

theorem succeeds_attributeValue {value : Option Node} (h : ∀ v ∈ value, Decides visit v) :
    Succeeds (attributeValue visit value) ↔ ∀ v ∈ value, v.Accepted := by
  cases value with
  | none => simp [attributeValue]
  | some value => simp [attributeValue, h value rfl .value]

theorem succeeds_attributeEntry {node : Node} (ha : node.isAttribute)
    (hv : DecidesBelow visit node.size) (hg : node.Grammatical) :
    Succeeds (attributeEntry visit node) ↔ node.Accepted := by
  cases node with
  | jsxAttribute name value =>
    have hfits := (grammatical_iff.1 hg).1
    simp only [fits, Bool.and_eq_true, Option.all_eq_true] at hfits
    have hname : Decides visit name :=
      hv.child hg (by simp [children]) (by simp [standsAlone, hfits.1])
    have hvalue : ∀ v ∈ value, Decides visit v := fun v hm =>
      hv.child hg (by simp_all [children]) (by simp [standsAlone, hfits.2 v hm])
    rw [attributeEntry, succeeds_bind_iff (p := name.Accepted) fun _ _ => by
      simp [hname .value], succeeds_attributeValue hvalue, accepted_iff (.jsxAttribute ..)]
    simp [isRefused, children, and_comm]
  | unsupported kind text => simp [attributeEntry, not_accepted_unsupported]
  | _ => cases ha

theorem succeeds_attributeMap {nodes : List Node}
    (h : ∀ a ∈ nodes, Succeeds (attributeEntry visit a) ↔ a.Accepted) :
    Succeeds (attributeMap visit nodes) ↔ ∀ a ∈ nodes, a.Accepted := by
  unfold attributeMap
  split
  · simp_all
  · simpa using forall₂_congr h

theorem succeeds_jsxElement {opening : Node} {items : List Node}
    (hv : DecidesBelow visit (Node.jsxElement opening items).size)
    (hg : (Node.jsxElement opening items).Grammatical) :
    Succeeds (jsxElement visit opening items) ↔ (Node.jsxElement opening items).Accepted := by
  have hfits := (grammatical_iff.1 hg).1
  simp only [fits, Bool.and_eq_true, List.all_eq_true] at hfits
  have hc : opening ∈ (Node.jsxElement opening items).children := by simp [children]
  have hitems : ∀ m ∈ items, Decides visit m := fun m hm =>
    hv.child hg (by simp [children, hm]) (by simp [standsAlone, hfits.2 m hm])
  have hgo := hg.child hc
  have hbelow := hv.descend hc
  obtain ⟨name, attributes, selfClosing, rfl⟩ := eq_jsxOpeningElement_of_isOpening hfits.1
  have hfitso := (grammatical_iff.1 hgo).1
  simp only [fits, Bool.and_eq_true, List.all_eq_true] at hfitso
  have hname : Decides visit name :=
    hbelow.child hgo (by simp [children]) (by simp [standsAlone, hfitso.1])
  have hattributes : Succeeds (attributeMap visit attributes) ↔ ∀ a ∈ attributes, a.Accepted := by
    refine succeeds_attributeMap fun a hm => ?_
    have ha : a ∈ (Node.jsxOpeningElement name attributes selfClosing).children := by
      simp [children, hm]
    exact succeeds_attributeEntry (hfitso.2 a hm) (hbelow.descend ha) (hgo.child ha)
  have hopening : (Node.jsxOpeningElement name attributes selfClosing).Accepted ↔
      name.Accepted ∧ ∀ a ∈ attributes, a.Accepted := by
    rw [accepted_iff]
    simp [isRefused, children]
  have hmapM : Succeeds (items.mapM (visit · .value)) ↔ ∀ m ∈ items, m.Accepted := by
    rw [succeeds_mapM]
    exact forall₂_congr fun m hm => hitems m hm .value
  rw [accepted_iff (.jsxElement ..)]
  simp only [isRefused, children, List.forall_mem_cons, hopening, Bool.false_eq_true,
    not_false_eq_true, true_and]
  rw [jsxElement, and_assoc, ← hattributes, ← hmapM, ← hname .tag, ← succeeds_one]
  exact succeeds_bind_iff fun _ _ => succeeds_bind_iff fun _ _ => by simp

end ScriptForms.Rule
