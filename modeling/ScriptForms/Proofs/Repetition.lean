import ScriptForms.Proofs.Hygiene

/-!
# What a compound assignment repeats

A compound assignment such as `a.b += c` writes a place and reads it as well, so that the form has
the parts of the place twice. Only a place whose parts may be evaluated twice is accepted: they are
made of names, `this`, literals and dotted accesses, and their forms do nothing but read.

* `Form.IsRead`: forms that read names and properties.
* `Rule.ReadsSimply`: a part of a place that may be evaluated twice.
* `Rule.Repeats`: the form of a compound assignment.
* `Rule.isRead_one`: the form of an expression that may be evaluated twice reads only.
* `Node.forms_compoundAssignment`: what the form of a compound assignment repeats.
-/

namespace ScriptForms

open Node

namespace Form

/-- A form that reads: a name, a literal, or properties of such a form, with or without a name for
the receiver. -/
inductive IsRead : Form → Prop where
  | symbol (name : String) : IsRead (.symbol name)
  | number (raw : String) : IsRead (.number raw)
  | string (value : String) : IsRead (.string value)
  | boolean (value : Bool) : IsRead (.boolean value)
  | getter {object : Form} (name : String) (h : IsRead object) :
      IsRead (.list [.symbol (dotGetterName name), object])
  | steps {object : Form} (names : List String) (h : IsRead object) :
      IsRead (.call ".." (object :: names.map fun name => .symbol (getterName name)))
  | receiver {form : Form} (name : String) (h : IsRead form) : IsRead (.thisAs name form)

end Form

namespace Node

/-- Names, `this`, literals other than patterns, and dotted accesses. -/
def isSimple : Node → Bool
  | .identifier _ | .thisExpression | .nullLiteral | .booleanLiteral _ | .numericLiteral _
  | .stringLiteral _ | .memberExpression _ _ false => true
  | _ => false

/-- A grammatical expression that may be evaluated twice is made of names, literals and dotted
accesses. -/
theorem isSimple_of_isRepeatable {node : Node} (h : node.isRepeatable) (hg : node.Grammatical) :
    ∀ m ∈ node.subtrees, m.isSimple := by
  induction node using isRepeatable.induct with
  | case7 object property ih =>
    have hfits := (grammatical_iff.1 hg).1
    simp only [fits, Bool.false_eq_true, if_false, Bool.and_eq_true] at hfits
    rw [forall_subtrees_iff]
    refine ⟨rfl, ?_⟩
    simp only [children, List.forall_mem_cons]
    refine ⟨ih h (hg.child (by simp [children])), ?_, by simp⟩
    obtain ⟨name, rfl⟩ := eq_identifier_of_isIdentifier hfits.2
    simp [subtrees_eq, descendants, children, isSimple]
  | case8 node h₁ h₂ h₃ h₄ h₅ h₆ h₇ =>
    rw [isRepeatable] at h
    · cases h
    all_goals assumption
  | _ => simp [subtrees_eq, descendants, children, isSimple]

theorem isRepeatable_dotChain {node : Node} (h : node.isRepeatable) :
    node.dotChain.1.isRepeatable ∧ node.dotChain.1.isAccess = false := by
  induction node using dotChain.induct with
  | case1 object property target properties hd ih => exact ih h
  | case2 node hne =>
    rw [dotChain]
    · refine ⟨h, ?_⟩
      cases node with
      | memberExpression object property computed =>
        cases computed with
        | false => exact absurd rfl (hne object property)
        | true => cases h
      | _ => rfl
    · exact hne

theorem isRepeatable_rebindReceiver (name : String) (node : Node) :
    (node.rebindReceiver name).isRepeatable = node.isRepeatable := by
  induction node using rebindReceiver.induct with
  | case1 => rfl
  | case2 object property computed ih =>
    cases computed with
    | false => exact ih
    | true => rfl
  | case3 node h₁ h₂ => rw [rebindReceiver]; exacts [h₁, h₂]

end Node

namespace Rule

open Form

variable {scope : Scope}

/-! ### Parts that are evaluated twice -/

/-- The forms of names, of `this` and of literals read. -/
theorem isRead_root {node : Node} (h : node.isRepeatable) (ha : node.isAccess = false)
    (context : Context) : Yields ((Visit.forms scope).one node context) IsRead := by
  cases node with
  | identifier name =>
    show Yields (.ok (identifier scope name context)) IsRead
    unfold identifier
    refine yields_ok ?_
    split
    · split <;> exact .symbol _
    all_goals exact .symbol _
  | thisExpression => exact yields_ok (.receiver _ (.symbol _))
  | nullLiteral => exact yields_ok (.symbol _)
  | booleanLiteral value => exact yields_ok (.boolean value)
  | numericLiteral raw => exact yields_ok (.number raw)
  | stringLiteral value => exact yields_ok (.string value)
  | memberExpression object property computed => cases ha
  | _ => cases h

theorem isRead_dotted {target : Node} {names : List String} (hn : names ≠ [])
    (h : Yields ((Visit.forms scope).one target .callee) IsRead) :
    Yields (dotted (Visit.forms scope) target (names.map .identifier)) IsRead := by
  match names, hn with
  | [name], _ =>
    simp only [List.map_singleton, dotted, getter_eq]
    exact yields_bind h fun object hobject => yields_pure (.getter name hobject)
  | first :: second :: rest, _ =>
    have hsteps := mapM_steps scope (first :: second :: rest)
    simp only [List.map_cons, dotted] at hsteps ⊢
    rw [hsteps]
    exact yields_bind h fun object hobject =>
      yields_pure (.steps (first :: second :: rest) hobject)

/-- A dotted access that may be evaluated twice reads properties from its root. -/
theorem isRead_plainMember {object property : Node}
    (h : (Node.memberExpression object property false).isRepeatable)
    (hnamed : (Node.memberExpression object property false).isNamedAccess) :
    Yields (plainMember (Visit.forms scope) (.memberExpression object property false)) IsRead := by
  obtain ⟨names, hnames, -⟩ := dotChain_named hnamed
  have hn : names ≠ [] := by
    rintro rfl
    simp [dotChain] at hnames
  obtain ⟨htarget, haccess⟩ := isRepeatable_dotChain h
  rw [plainMember, hnames]
  exact isRead_dotted hn (isRead_root htarget haccess .callee)

/-- The form of an expression that may be evaluated twice reads. -/
theorem isRead_one {node : Node} (h : node.isRepeatable) (hnamed : node.isNamedAccess)
    (context : Context) : Yields ((Visit.forms scope).one node context) IsRead := by
  cases node with
  | memberExpression object property computed =>
    cases computed with
    | true => cases h
    | false =>
      rw [one_memberExpression, member]
      split
      · -- With a name for the receiver, the access is one that does not start at `this`.
        rw [← isRepeatable_rebindReceiver receiver] at h
        rw [← isNamedAccess_rebindReceiver receiver] at hnamed
        exact yields_bind (isRead_plainMember h hnamed) fun form hform =>
          yields_pure (.receiver receiver hform)
      · exact isRead_plainMember h hnamed
  | _ => exact isRead_root h rfl context

/-- A part of a place that a compound assignment repeats: it is made of names, `this`, literals and
dotted accesses, and its form reads. -/
structure ReadsSimply (scope : Scope) (node : Node) (context : Context) (form : Form) : Prop where
  converts : (Visit.forms scope).one node context = .ok form
  simple : ∀ m ∈ node.subtrees, m.isSimple
  reads : form.IsRead

theorem readsSimply_of_isRepeatable {node : Node} (h : node.isRepeatable) (hg : node.Grammatical)
    {context : Context} {form : Form} (hform : (Visit.forms scope).one node context = .ok form) :
    ReadsSimply scope node context form where
  converts := hform
  simple := isSimple_of_isRepeatable h hg
  reads := isRead_one h hg.isNamedAccess context form hform

/-! ### Compound assignments -/

/-- The forms of the compound assignment of a value to a place, by the kind of the place: whatever
stands at two places of the form is the form of one simple part. -/
inductive Repeats (scope : Scope) (operator : String) (value : Form) : Node → Form → Prop where
  | name {name : String} {place : Form}
      (h : ReadsSimply scope (.identifier name) .value place) :
      Repeats scope operator value (.identifier name)
        (.call "set!" [place, .call operator [place, value]])
  | property {object : Node} {form : Form} (name : String)
      (h : ReadsSimply scope object .callee form) :
      Repeats scope operator value (.memberExpression object (.identifier name) false)
        (.call "set!" [.list [.symbol (dotGetterName name), form],
          .call operator [.list [.symbol (dotGetterName name), form], value]])
  | element {object key : Node} {form keyForm : Form}
      (h : ReadsSimply scope object .callee form) (hk : ReadsSimply scope key .value keyForm) :
      Repeats scope operator value (.memberExpression object key true)
        (.call "aset" [form, keyForm,
          .call operator [.call "aget" [form, keyForm], value]])

/-- The operator of a compound assignment of the language ends in `=`. -/
theorem arithmeticOperator_append {operator : String}
    (h : Source.assignmentOperators.contains operator) (hne : operator ≠ "=") :
    operator = arithmeticOperator operator ++ "=" := by
  have htable : ∀ operator ∈ Source.assignmentOperators, operator ≠ "=" →
      operator = arithmeticOperator operator ++ "=" := by decide
  exact htable operator (by simpa using h) hne

theorem compound_of_ne {operator : String} (hne : operator ≠ "=") (current value : Form) :
    Yields (compound operator current value)
      (· = .call (arithmeticOperator operator) [current, value]) := by
  unfold compound
  split
  · exact absurd rfl hne
  iterate 3 exact yields_error _
  · exact yields_ok rfl

/-- A compound assignment to a place that may be read and written repeats simple parts only. -/
theorem repeats_assignTo {operator : String} (hne : operator ≠ "=") {target : Node}
    (h : target.isRepeatablePlace) (hg : target.Grammatical) (value : Form) :
    Yields (assignTo (Visit.forms scope) operator target value)
      (Repeats scope (arithmeticOperator operator) value target) := by
  intro body hbody
  cases target with
  | identifier name =>
    rw [assignTo, bind_eq_ok] at hbody
    obtain ⟨place, hplace, hbody⟩ := hbody
    rw [assignPlace, bind_eq_ok] at hbody
    obtain ⟨stored, hstored, hbody⟩ := hbody
    obtain rfl := compound_of_ne hne place value stored hstored
    obtain rfl := Except.ok.inj hbody
    exact .name (readsSimply_of_isRepeatable rfl hg hplace)
  | memberExpression object property computed =>
    have hobject : object.Grammatical := hg.child (by simp [children])
    simp only [isRepeatablePlace, Bool.and_eq_true] at h
    cases computed with
    | false =>
      have hnamed := hg.isNamedAccess
      simp only [isNamedAccess, Bool.false_or, Bool.and_eq_true] at hnamed
      obtain ⟨name, rfl⟩ := eq_identifier_of_isIdentifier hnamed.2
      rw [assignTo, getter_eq, bind_assoc, bind_eq_ok] at hbody
      obtain ⟨form, hform, hbody⟩ := hbody
      rw [pure_bind, assignPlace, bind_eq_ok] at hbody
      obtain ⟨stored, hstored, hbody⟩ := hbody
      obtain rfl := compound_of_ne hne _ value stored hstored
      obtain rfl := Except.ok.inj hbody
      exact .property name (readsSimply_of_isRepeatable h.1 hobject hform)
    | true =>
      have hkey : property.Grammatical := hg.child (by simp [children])
      rw [assignTo, bind_eq_ok] at hbody
      obtain ⟨form, hform, hbody⟩ := hbody
      rw [bind_eq_ok] at hbody
      obtain ⟨keyForm, hkeyForm, hbody⟩ := hbody
      rw [bind_eq_ok] at hbody
      obtain ⟨stored, hstored, hbody⟩ := hbody
      obtain rfl := compound_of_ne hne _ value stored hstored
      obtain rfl := Except.ok.inj hbody
      exact .element (readsSimply_of_isRepeatable h.1 hobject hform)
        (readsSimply_of_isRepeatable h.2 hkey hkeyForm)
  | _ => cases hbody

theorem repeats_plainAssignment {operator : String} (hne : operator ≠ "=") (shown : Node)
    {target : Node} (hg : target.Grammatical) (right : Node) :
    Yields (plainAssignment (Visit.forms scope) operator shown target right) fun body =>
      ∃ value, (Visit.forms scope).one right = .ok value ∧
        Repeats scope (arithmeticOperator operator) value target body := by
  intro body hbody
  unfold plainAssignment at hbody
  by_cases hplace : target.isRepeatablePlace
  · rw [if_neg fun h => h.2 hplace] at hbody
    obtain ⟨value, hvalue, hbody⟩ := bind_eq_ok.1 hbody
    exact ⟨value, hvalue, repeats_assignTo hne hplace hg value body hbody⟩
  · rw [if_pos ⟨hne, hplace⟩] at hbody
    cases hbody

end Rule

namespace Node

open Rule Form

/-- A compound assignment converts to one form, under a name for the receiver if its place starts at
`this`. The form converts the value once, and whatever it repeats is the form of a part of the place
that is made of names, `this`, literals and dotted accesses. -/
theorem forms_compoundAssignment {operator : String} {left right : Node}
    (hg : (Node.assignmentExpression operator left right).Grammatical)
    (ho : Source.assignmentOperators.contains operator) (hne : operator ≠ "=")
    (scope : Scope) (context : Context) {forms : List Form}
    (h : (Node.assignmentExpression operator left right).forms scope context = .ok forms) :
    ∃ arithmetic value body, operator = arithmetic ++ "=" ∧
      (Visit.forms scope).one right = .ok value ∧
      forms = [left.underReceiver placeReceiver body] ∧
      Repeats scope arithmetic value (left.rebindReceiver placeReceiver) body := by
  have hleft : left.Grammatical := hg.child (by simp [children])
  have hop := arithmeticOperator_append ho hne
  rw [forms_eq, step, bind_eq_ok] at h
  obtain ⟨form, hform, hforms⟩ := h
  obtain rfl := Except.ok.inj hforms
  unfold assignment at hform
  by_cases hr : left.isReceiverRooted
  · rw [if_pos hr, bind_eq_ok] at hform
    obtain ⟨body, hbody, hform⟩ := hform
    obtain rfl := Except.ok.inj hform
    obtain ⟨value, hvalue, hrepeats⟩ := repeats_plainAssignment hne left
      (hleft.rebindReceiver placeReceiver) right body hbody
    refine ⟨_, value, body, hop, hvalue, ?_, hrepeats⟩
    rw [underReceiver, if_pos (Bool.and_eq_true_iff.1 hr).2]
  · rw [if_neg hr] at hform
    obtain ⟨value, hvalue, hrepeats⟩ :=
      repeats_plainAssignment hne left hleft right form hform
    -- A place that is an access does not start at `this`, and `this` itself is no place.
    have hroot : left.accessRoot.isThis = false := by
      cases hrepeats with
      | name => rfl
      | property | element => simpa [isReceiverRooted, isAccess] using hr
    refine ⟨_, value, form, hop, hvalue, ?_, ?_⟩
    · rw [underReceiver, hroot, if_neg Bool.false_ne_true]
    · rwa [rebindReceiver_of_not_this hroot]

/-- The place `this.a.b[this.k]`. -/
def nestedPlace : Node :=
  .memberExpression (Node.thisExpression.dots ["a", "b"]) (Node.thisExpression.dots ["k"]) true

/-- The form of `this.a.b[this.k] += x`, without the name for the receiver. -/
def nestedBody : Form :=
  let object := Form.call ".." [.symbol "that", .symbol "-a", .symbol "-b"]
  let key := Form.thisAs "this" (.list [.symbol ".-k", .symbol "this"])
  .call "aset" [object, key, .call "+" [.call "aget" [object, key], .symbol "x"]]

/-- The assignment `this.a.b[this.k] += x` repeats an object and a key that only read. -/
theorem forms_nestedPlace :
    (Node.assignmentExpression "+=" nestedPlace (.identifier "x")).forms (fun _ => false) =
        .ok [.thisAs "that" nestedBody] ∧
      Repeats (fun _ => false) "+" (.symbol "x") (nestedPlace.rebindReceiver "that")
        nestedBody := by
  have hform : (Node.assignmentExpression "+=" nestedPlace (.identifier "x")).forms
      (fun _ => false) .value = .ok [.thisAs "that" nestedBody] := rfl
  obtain ⟨arithmetic, value, body, hop, hvalue, hforms, hrepeats⟩ :=
    forms_compoundAssignment (by unfold Grammatical; decide) (by decide) (by decide) _ .value hform
  obtain rfl : "+" = arithmetic := String.append_left_inj "=" |>.1 hop
  obtain rfl : Form.symbol "x" = value := Except.ok.inj hvalue
  obtain rfl : nestedBody = body := by
    have hroot : nestedPlace.accessRoot.isThis := rfl
    simpa [underReceiver, hroot, placeReceiver, thisAs, Form.call] using hforms
  exact ⟨hform, hrepeats⟩

end Node

end ScriptForms
