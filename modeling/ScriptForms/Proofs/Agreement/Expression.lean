import ScriptForms.Proofs.Agreement.Statement

/-!
# Expressions in two conversions

One lemma per rule for compound literals, accesses, assignments, calls and elements: on a covered
tree the rule fails for the same reason in both conversions, or gives related forms, if the two
conversions agree on the trees below.
-/

namespace ScriptForms.Rule

open Node Form Comparison

variable {c : Comparison} {visit₁ visit₂ : Visit}

/-! ### Parts of covered trees -/

theorem covers_access {object property : Node} {computed : Bool}
    (h : c.Covers (.memberExpression object property computed)) :
    c.Covers object ∧ c.Covers property :=
  ⟨h.child (by simp [children]), h.child (by simp [children])⟩

theorem covers_call {callee : Node} {nodes : List Node}
    (h : c.Covers (.callExpression callee nodes)) :
    c.Covers callee ∧ ∀ a ∈ nodes, c.Covers a :=
  ⟨h.child (by simp [children]), fun a ha => h.child (by simp [children, ha])⟩

/-! ### Literals -/

theorem agree_templateItems (hv : Agrees c visit₁ visit₂) (texts : List String)
    {expressions : List Node} (h : ∀ e ∈ expressions, c.Covers e) :
    Agree (List.Forall₂ c.Related) (templateItems visit₁ texts expressions)
      (templateItems visit₂ texts expressions) := by
  induction texts generalizing expressions with
  | nil => exact .ok .nil
  | cons text texts ih =>
    cases expressions with
    | nil =>
      refine agree_bind (@ih [] (by simp)) fun forms others hforms => ?_
      exact agree_pure (.cons (c.string text) hforms)
    | cons expression expressions =>
      rw [List.forall_mem_cons] at h
      refine agree_bind (hv.one h.1 .value) fun value value' hvalue => ?_
      refine agree_bind (ih h.2) fun forms others hforms => ?_
      exact agree_pure (.cons (c.string text) (.cons hvalue hforms))

theorem agree_template (hv : Agrees c visit₁ visit₂) {texts : List String}
    {expressions : List Node} (h : c.Covers (.templateLiteral texts expressions)) :
    Agree c.Related (template visit₁ texts expressions) (template visit₂ texts expressions) :=
  agree_bind (agree_templateItems hv texts fun _ he => h.child he) fun _ _ hforms =>
    agree_pure (related_fixedCall (by decide) hforms)

/-- An array under construction in two conversions. -/
structure RelatedArrays (c : Comparison) (parts other : ArrayParts) : Prop where
  items : List.Forall₂ c.Related parts.items other.items
  concat : parts.concat = other.concat

theorem RelatedArrays.form {parts other : ArrayParts} (h : RelatedArrays c parts other) :
    c.Related parts.form other.form := by
  unfold ArrayParts.form
  rw [h.concat]
  split
  · exact related_fixedCall (by decide) h.items
  · exact c.hostTagged (c.vector h.items)

theorem agree_arrayElement (hv : Agrees c visit₁ visit₂) {parts other : ArrayParts}
    (hparts : RelatedArrays c parts other) {element : Node} (h : c.Covers element) :
    Agree (RelatedArrays c) (arrayElement visit₁ parts element)
      (arrayElement visit₂ other element) := by
  unfold arrayElement
  split
  · refine agree_bind (hv.one (h.child (by simp [children])) .value) fun spread spread' hs => ?_
    exact agree_pure ⟨.cons hparts.form (.cons hs .nil), rfl⟩
  · refine agree_bind (hv.one h .value) fun item item' hitem => ?_
    exact agree_pure ⟨related_append hparts.items (.cons hitem .nil), hparts.concat⟩

theorem agree_array (hv : Agrees c visit₁ visit₂) {elements : List Node}
    (h : c.Covers (.arrayExpression elements)) :
    Agree c.Related (array visit₁ elements) (array visit₂ elements) := by
  have hparts : Agree (RelatedArrays c) (elements.foldlM (arrayElement visit₁) {})
      (elements.foldlM (arrayElement visit₂) {}) := by
    refine agree_foldlM (fun element he parts other hparts => ?_) ⟨.nil, rfl⟩
    exact agree_arrayElement hv hparts (h.child he)
  exact agree_bind hparts fun _ _ hparts => agree_pure hparts.form

theorem agree_propertyKey {key : Node} (h : c.Covers key) :
    Agree c.Related (propertyKey key) (propertyKey key) := by
  cases key with
  | identifier name | numericLiteral raw =>
    exact .ok (c.keyword (.own (h.word (by simp [words]))))
  | stringLiteral value =>
    refine .ok ?_
    split
    · rename_i hsafe
      exact c.keyword (.key hsafe)
    · exact c.string value
  | _ => exact .error _

/-- An object under construction in two conversions. -/
structure RelatedObjects (c : Comparison) (parts other : ObjectParts) : Prop where
  sources : List.Forall₂ c.Related parts.sources other.sources
  entries : List.Forall₂ c.Related parts.entries other.entries
  spread : parts.spread = other.spread

theorem RelatedObjects.closed {parts other : ObjectParts} (h : RelatedObjects c parts other) :
    List.Forall₂ c.Related parts.closed other.closed := by
  unfold ObjectParts.closed
  have hempty : parts.entries.isEmpty = other.entries.isEmpty := by
    rw [Bool.eq_iff_iff, List.isEmpty_iff_length_eq_zero, List.isEmpty_iff_length_eq_zero,
      h.entries.length_eq]
  rw [hempty]
  split
  · exact h.sources
  · exact related_append h.sources (.cons (c.hostTagged (c.hashMap h.entries)) .nil)

theorem RelatedObjects.form {parts other : ObjectParts} (h : RelatedObjects c parts other) :
    c.Related parts.form other.form := by
  unfold ObjectParts.form
  rw [h.spread]
  split
  · exact related_fixedCall (by decide) (.cons (c.hostTagged (c.hashMap .nil)) h.closed)
  · exact c.hostTagged (c.hashMap h.entries)

theorem agree_objectEntry (hv : Agrees c visit₁ visit₂) {member : Node} (h : c.Covers member) :
    Agree c.Related (objectEntry visit₁ member) (objectEntry visit₂ member) := by
  cases member with
  | objectProperty key value computed shorthand =>
    refine agree_check ?_
    refine agree_bind (agree_propertyKey (h.child (by simp [children]))) fun key key' hkey => ?_
    refine agree_bind (hv.one (h.child (by simp [children])) .value) fun value value' hvalue => ?_
    exact agree_pure (c.mapEntry hkey hvalue)
  | objectMethod kind key params body computed =>
    have hfunction : Agree c.Related (function visit₁ "fn" none params body)
        (function visit₂ "fn" none params body) :=
      agree_lambda hv .nil (fun p hm => h.child (by simp [children, hm]))
        (h.child (by simp [children]))
    refine agree_check ?_
    refine agree_bind (agree_propertyKey (h.child (by simp [children]))) fun key key' hkey => ?_
    exact agree_bind hfunction fun value value' hvalue => agree_pure (c.mapEntry hkey hvalue)
  | _ => exact .error _

theorem agree_objectMember (hv : Agrees c visit₁ visit₂) {parts other : ObjectParts}
    (hparts : RelatedObjects c parts other) {member : Node} (h : c.Covers member) :
    Agree (RelatedObjects c) (objectMember visit₁ parts member)
      (objectMember visit₂ other member) := by
  unfold objectMember
  split
  · refine agree_bind (hv.one (h.child (by simp [children])) .value) fun source source' hs => ?_
    exact agree_pure ⟨related_append hparts.closed (.cons hs .nil), .nil, rfl⟩
  · refine agree_bind (agree_objectEntry hv h) fun entry entry' hentry => agree_pure ?_
    exact ⟨hparts.sources, related_append hparts.entries (.cons hentry .nil), hparts.spread⟩

theorem agree_object (hv : Agrees c visit₁ visit₂) {properties : List Node}
    (h : c.Covers (.objectExpression properties)) :
    Agree c.Related (object visit₁ properties) (object visit₂ properties) := by
  have hparts : Agree (RelatedObjects c) (properties.foldlM (objectMember visit₁) {})
      (properties.foldlM (objectMember visit₂) {}) := by
    refine agree_foldlM (fun member hm parts other hparts => ?_) ⟨.nil, .nil, rfl⟩
    exact agree_objectMember hv hparts (h.child hm)
  exact agree_bind hparts fun _ _ hparts => agree_pure hparts.form

/-! ### Reading -/

theorem agree_getter (hv : Agrees c visit₁ visit₂) {object property : Node}
    (ho : c.Covers object) (hp : c.Covers property) :
    Agree c.Related (getter visit₁ object property) (getter visit₂ object property) := by
  refine agree_bind (hv.one hp _) fun property property' hproperty => ?_
  refine agree_bind (hv.one ho .callee) fun object object' hobject => ?_
  exact agree_pure (c.list (.cons hproperty (.cons hobject .nil)))

theorem agree_element (hv : Agrees c visit₁ visit₂) {object key : Node} (ho : c.Covers object)
    (hk : c.Covers key) :
    Agree c.Related (element visit₁ object key) (element visit₂ object key) := by
  refine agree_bind (hv.one ho .callee) fun object object' hobject => ?_
  refine agree_bind (hv.one hk .value) fun key key' hkey => ?_
  exact agree_pure (related_fixedCall (by decide) (.cons hobject (.cons hkey .nil)))

theorem agree_dotted (hv : Agrees c visit₁ visit₂) {target : Node} (ht : c.Covers target)
    {properties : List Node} (hp : ∀ p ∈ properties, c.Covers p) :
    Agree c.Related (dotted visit₁ target properties) (dotted visit₂ target properties) := by
  unfold dotted
  split
  · exact agree_getter hv ht (hp _ (by simp))
  · refine agree_bind (hv.one ht .callee) fun target target' htarget => ?_
    have hsteps := agree_mapM fun p hm => hv.one (hp p hm) (.named .getter)
    refine agree_bind hsteps fun steps steps' hsteps => ?_
    exact agree_pure (related_fixedCall (by decide) (.cons htarget hsteps))

theorem agree_plainMember (hv : Agrees c visit₁ visit₂) {node : Node} (h : c.Covers node) :
    Agree c.Related (plainMember visit₁ node) (plainMember visit₂ node) := by
  unfold plainMember
  split
  · exact agree_element hv (h.child (by simp [children])) (h.child (by simp [children]))
  · exact agree_dotted hv (h.descendant (dotChain_target_descendants _ _)) fun p hm =>
      h.descendant (dotChain_properties_mem _ p hm)
  · exact .error _

theorem agree_member (hv : Agrees c visit₁ visit₂) {node : Node} (h : c.Covers node) :
    Agree c.Related (member visit₁ node) (member visit₂ node) := by
  unfold member
  split
  · have hrebound := agree_plainMember hv (h.rebindReceiver receiver (by simp))
    exact agree_bind hrebound fun form form' hform =>
      agree_pure (related_thisAs (by simp) hform)
  · exact agree_plainMember hv h

/-! ### Writing -/

theorem agree_compound {operator : String} (hw : c.word operator) {current current' : Form}
    (hc : c.Related current current') {value value' : Form} (hv : c.Related value value') :
    Agree c.Related (compound operator current value) (compound operator current' value') := by
  unfold compound
  split
  · exact .ok hv
  · exact .error _
  · exact .error _
  · exact .error _
  · rename_i hne _ _ _
    exact .ok (related_call (.arithmetic hw hne) (.cons hc (.cons hv .nil)))

theorem agree_assignPlace {operator : String} (hw : c.word operator) {place place' : Form}
    (hp : c.Related place place') {value value' : Form} (hv : c.Related value value') :
    Agree c.Related (assignPlace operator place value) (assignPlace operator place' value') := by
  refine agree_bind (agree_compound hw hp hv) fun form form' hform => ?_
  exact agree_pure (related_fixedCall (by decide) (.cons hp (.cons hform .nil)))

theorem agree_assignTo (hv : Agrees c visit₁ visit₂) {operator : String} (hw : c.word operator)
    {target : Node} (ht : c.Covers target) {value value' : Form} (hvalue : c.Related value value') :
    Agree c.Related (assignTo visit₁ operator target value)
      (assignTo visit₂ operator target value') := by
  unfold assignTo
  split
  · refine agree_bind (hv.one ht .value) fun place place' hplace => ?_
    exact agree_assignPlace hw hplace hvalue
  · obtain ⟨ho, hp⟩ := covers_access ht
    refine agree_bind (agree_getter hv ho hp) fun place place' hplace => ?_
    exact agree_assignPlace hw hplace hvalue
  · obtain ⟨ho, hk⟩ := covers_access ht
    refine agree_bind (hv.one ho .callee) fun object object' ho => ?_
    refine agree_bind (hv.one hk .value) fun key key' hkey => ?_
    have hread : c.Related (.call "aget" [object, key]) (.call "aget" [object', key']) :=
      related_fixedCall (by decide) (.cons ho (.cons hkey .nil))
    refine agree_bind (agree_compound hw hread hvalue) fun form form' hform => agree_pure ?_
    exact related_fixedCall (by decide) (.cons ho (.cons hkey (.cons hform .nil)))
  · exact .error _

theorem agree_assignment (hv : Agrees c visit₁ visit₂) {operator : String} {left right : Node}
    (h : c.Covers (.assignmentExpression operator left right)) :
    Agree c.Related (assignment visit₁ operator left right)
      (assignment visit₂ operator left right) := by
  have hleft : c.Covers left := h.child (by simp [children])
  have hright : c.Covers right := h.child (by simp [children])
  have hplain : ∀ target, c.Covers target →
      Agree c.Related (plainAssignment visit₁ operator left target right)
        (plainAssignment visit₂ operator left target right) := by
    intro target ht
    refine agree_check (agree_bind (hv.one hright .value) fun value value' hvalue => ?_)
    exact agree_assignTo hv (h.word (by simp [words])) ht hvalue
  unfold assignment
  split
  · have hrebound := hplain _ (hleft.rebindReceiver placeReceiver (by simp))
    exact agree_bind hrebound fun form form' hform => agree_pure (related_thisAs (by simp) hform)
  · exact hplain left hleft

theorem agree_unary (hv : Agrees c visit₁ visit₂) {operator : String} {argument : Node}
    (h : c.Covers (.unaryExpression operator argument)) :
    Agree c.Related (unary visit₁ operator argument) (unary visit₂ operator argument) := by
  have ha : c.Covers argument := h.child (by simp [children])
  unfold unary
  split
  · refine agree_bind (hv.one ha .value) fun form form' hform => agree_pure ?_
    exact related_call (.operator (h.word (by simp [words]))) (.cons hform .nil)
  · split
    · refine agree_bind (hv.one (covers_access ha).1 .callee) fun object object' ho => ?_
      exact agree_pure (related_fixedCall (by decide) (.cons ho (.cons (c.string _) .nil)))
    · refine agree_bind (hv.one (covers_access ha).2 .value) fun key key' hkey => ?_
      refine agree_bind (hv.one (covers_access ha).1 .callee) fun object object' ho => ?_
      exact agree_pure (related_fixedCall (by decide) (.cons ho (.cons hkey .nil)))
    · exact .error _

/-! ### Calling -/

theorem agree_arguments (hv : Agrees c visit₁ visit₂) {nodes : List Node}
    (h : ∀ a ∈ nodes, c.Covers a) :
    Agree (List.Forall₂ c.Related) (arguments visit₁ nodes) (arguments visit₂ nodes) := by
  refine agree_mapM fun a hm => ?_
  unfold argument
  split
  · exact .error _
  · exact hv.one (h a hm) .value

theorem agree_callFront (hv : Agrees c visit₁ visit₂) {callee : Node} (h : c.Covers callee) :
    Agree (List.Forall₂ c.Related) (callFront visit₁ callee) (callFront visit₂ callee) := by
  unfold callFront
  split
  · obtain ⟨ho, hp⟩ := covers_access h
    refine agree_bind (hv.one hp _) fun method method' hmethod => ?_
    refine agree_bind (hv.one ho _) fun object object' hobject => ?_
    exact agree_pure (.cons hmethod (.cons hobject .nil))
  · obtain ⟨ho, hk⟩ := covers_access h
    exact agree_bind (agree_element hv ho hk) fun form form' hform => agree_pure (.cons hform .nil)
  · exact agree_bind (hv.one h .callee) fun form form' hform => agree_pure (.cons hform .nil)

theorem agree_call (hv : Agrees c visit₁ visit₂) {callee : Node} {nodes : List Node}
    (h : c.Covers (.callExpression callee nodes)) :
    Agree c.Related (call visit₁ callee nodes) (call visit₂ callee nodes) := by
  obtain ⟨hcallee, hnodes⟩ := covers_call h
  have hargs := agree_arguments hv hnodes
  have hplain : ∀ node, c.Covers node →
      Agree c.Related (plainCall visit₁ node nodes) (plainCall visit₂ node nodes) := by
    intro node hnode
    refine agree_bind (agree_callFront hv hnode) fun front front' hfront => ?_
    exact agree_bind hargs fun args args' hargs => agree_pure (c.list (related_append hfront hargs))
  unfold call
  split
  · have hrebound := hplain _ (hcallee.rebindReceiver receiver (by simp))
    exact agree_bind hrebound fun form form' hform => agree_pure (related_thisAs (by simp) hform)
  · exact hplain callee hcallee

theorem agree_stage (hv : Agrees c visit₁ visit₂) {link : CallLink}
    (h : c.Covers (.callExpression link.callee link.arguments)) :
    Agree c.Related (stage visit₁ link) (stage visit₂ link) := by
  obtain ⟨hcallee, hnodes⟩ := covers_call h
  have hargs := agree_arguments hv hnodes
  unfold stage
  split
  · rename_i object property computed heq
    rw [heq] at hcallee
    refine agree_bind (hv.one (covers_access hcallee).2 _) fun method method' hmethod => ?_
    exact agree_bind hargs fun args args' hargs => agree_pure (c.list (.cons hmethod hargs))
  · exact .error _

theorem agree_callExpression (hv : Agrees c visit₁ visit₂) {callee : Node} {nodes : List Node}
    (h : c.Covers (.callExpression callee nodes)) :
    Agree c.Related (callExpression visit₁ callee nodes) (callExpression visit₂ callee nodes) := by
  have hlink : ∀ link ∈ (Node.callExpression callee nodes).callChain,
      c.Covers (.callExpression link.callee link.arguments) := fun link hl =>
    h.subtree (callChain_mem hl)
  unfold callExpression
  dsimp only
  split
  · rename_i first others _ hlinks
    rw [hlinks, List.forall_mem_cons] at hlink
    refine agree_bind (agree_call hv hlink.1) fun start start' hstart => ?_
    have hstages := agree_mapM fun link hl => agree_stage hv (hlink.2 link hl)
    refine agree_bind hstages fun stages stages' hstages => ?_
    exact agree_pure (related_fixedCall (by decide) (.cons hstart hstages))
  · exact agree_call hv h

theorem agree_newExpression (hv : Agrees c visit₁ visit₂) {callee : Node} {nodes : List Node}
    (h : c.Covers (.newExpression callee nodes)) :
    Agree c.Related (newExpression visit₁ callee nodes) (newExpression visit₂ callee nodes) := by
  have hnodes : ∀ a ∈ nodes, c.Covers a := fun a ha => h.child (by simp [children, ha])
  have hargs := agree_arguments hv hnodes
  refine agree_bind (hv.one (h.child (by simp [children])) .callee) fun form form' hform => ?_
  refine agree_bind hargs fun args args' hargs => ?_
  exact agree_pure (related_fixedCall (by decide) (.cons hform hargs))

/-! ### Elements -/

theorem related_elementName {name : String} (hw : c.word name) (context : Context) :
    c.Related (elementName name context) (elementName name context) := by
  unfold elementName
  split
  · exact c.symbol (.own hw)
  · exact c.keyword (.own hw)

theorem related_elementText (value : String) :
    c.Related (elementText value) (elementText value) := by
  unfold elementText
  split
  · exact c.marker rfl
  · exact c.string value

theorem agree_attributeValue (hv : Agrees c visit₁ visit₂) {value : Option Node}
    (h : ∀ v ∈ value, c.Covers v) :
    Agree c.Related (attributeValue visit₁ value) (attributeValue visit₂ value) := by
  cases value with
  | none => exact .ok (c.boolean true)
  | some value =>
    refine agree_bind (hv.one (h value rfl) .value) fun form form' hform => agree_pure ?_
    -- Markers are related to markers only, so both values become `nil` or neither does.
    rw [c.isMarker_eq hform]
    split
    · exact related_nil
    · exact hform

theorem agree_attributeEntry (hv : Agrees c visit₁ visit₂) {node : Node} (h : c.Covers node) :
    Agree c.Related (attributeEntry visit₁ node) (attributeEntry visit₂ node) := by
  cases node with
  | jsxAttribute name value =>
    have hcovers : ∀ v ∈ value, c.Covers v := fun v hm => h.child (by simp_all [children])
    refine agree_bind (agree_attributeValue hv hcovers) fun value value' hvalue => ?_
    refine agree_bind (hv.one (h.child (by simp [children])) .value) fun name name' hname => ?_
    exact agree_pure (c.mapEntry hname hvalue)
  | _ => exact .error _

theorem agree_attributeMap (hv : Agrees c visit₁ visit₂) {nodes : List Node}
    (h : ∀ a ∈ nodes, c.Covers a) :
    Agree c.Related (attributeMap visit₁ nodes) (attributeMap visit₂ nodes) := by
  unfold attributeMap
  split
  · exact .ok related_nil
  · refine agree_bind (agree_mapM fun a hm => agree_attributeEntry hv (h a hm)) ?_
    exact fun entries entries' hentries => agree_pure (c.hashMap hentries)

theorem agree_jsxElement (hv : Agrees c visit₁ visit₂) {opening : Node} {items : List Node}
    (h : c.Covers (.jsxElement opening items)) :
    Agree c.Related (jsxElement visit₁ opening items) (jsxElement visit₂ opening items) := by
  have hopening : c.Covers opening := h.child (by simp [children])
  have hitems : Agree (List.Forall₂ (List.Forall₂ c.Related)) (items.mapM (visit₁ · .value))
      (items.mapM (visit₂ · .value)) :=
    agree_mapM fun m hm => hv.forms (h.child (by simp [children, hm])) .value
  cases opening with
  | jsxOpeningElement name attributes selfClosing =>
    have hattributes : ∀ a ∈ attributes, c.Covers a := fun a ha =>
      hopening.child (by simp [children, ha])
    refine agree_bind (hv.one (hopening.child (by simp [children])) .tag) fun tag tag' htag => ?_
    refine agree_bind (agree_attributeMap hv hattributes) fun form form' hform => ?_
    refine agree_bind hitems fun lists lists' hlists => agree_pure ?_
    exact c.vector (.cons htag (.cons hform (related_flatten hlists)))
  | _ => exact .error _

end ScriptForms.Rule
