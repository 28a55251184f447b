import ScriptForms.Proofs.Node.Chain
import ScriptForms.Proofs.Shape.Basic

/-!
# The forms of expressions

One lemma per rule for compound literals, accesses, assignments, calls and elements: the rule yields
an item on a grammatical tree.
-/

namespace ScriptForms

open Node Form

namespace Form

/-- The forms are entries of an object. -/
def AreEntries (forms : List Form) : Prop :=
  ∃ pairs : List (Form × Form), forms = entries pairs ∧ (∀ p ∈ pairs, p.1.isAtom) ∧
    ∀ p ∈ pairs, p.2.IsItem

theorem areEntries_nil : AreEntries [] := ⟨[], rfl, by simp, by simp⟩

theorem AreEntries.concat {forms : List Form} (h : AreEntries forms) {key value : Form}
    (hk : key.isAtom) (hv : value.IsItem) : AreEntries (forms ++ [.mapEntry key value]) := by
  obtain ⟨pairs, rfl, hkeys, hvalues⟩ := h
  refine ⟨pairs ++ [(key, value)], by simp [entries], ?_, ?_⟩
  · exact List.forall_mem_append.2 ⟨hkeys, by simpa using hk⟩
  · exact List.forall_mem_append.2 ⟨hvalues, by simpa using hv⟩

theorem AreEntries.hostObject {forms : List Form} (h : AreEntries forms) :
    (Form.hostObject forms).IsItem := by
  obtain ⟨pairs, rfl, hkeys, hvalues⟩ := h
  exact .hostObject hkeys hvalues

/-- The form is the entry of an attribute. -/
def IsAttributeEntry (form : Form) : Prop :=
  ∃ pair : Form × Form, form = .mapEntry pair.1 pair.2 ∧ pair.1.isName ∧ pair.2.IsItem

end Form

namespace Rule

variable {visit : Visit}

/-! ### Literals -/

theorem yields_templateItems {texts : List String} {expressions : List Node}
    (h : ∀ e ∈ expressions, Yields (visit.one e .value) IsItem) :
    Yields (templateItems visit texts expressions) AreItems := by
  induction texts generalizing expressions with
  | nil => exact yields_ok (by simp [AreItems])
  | cons text texts ih =>
    cases expressions with
    | nil =>
      refine yields_bind (@ih [] (by simp)) fun forms hforms => ?_
      exact yields_pure (List.forall_mem_cons.2 ⟨.atom rfl, hforms⟩)
    | cons expression expressions =>
      rw [List.forall_mem_cons] at h
      refine yields_bind h.1 fun value hvalue => yields_bind (ih h.2) fun forms hforms => ?_
      exact yields_pure
        (List.forall_mem_cons.2 ⟨.atom rfl, List.forall_mem_cons.2 ⟨hvalue, hforms⟩⟩)

theorem yields_template {texts : List String} {expressions : List Node}
    (hv : ShapesBelow visit (Node.templateLiteral texts expressions).size)
    (hg : (Node.templateLiteral texts expressions).Grammatical) :
    Yields (template visit texts expressions) IsItem := by
  have hfits := (grammatical_iff.1 hg).1
  simp only [fits, Bool.and_eq_true, List.all_eq_true] at hfits
  have hitems : ∀ e ∈ expressions, Yields (visit.one e .value) IsItem := fun e hm =>
    hv.childOne hg hm (hfits.1 e hm) .value
  exact yields_bind (yields_templateItems hitems) fun forms hforms =>
    yields_pure (isItem_call "str" hforms)

theorem isItem_arrayParts {parts : ArrayParts} (h : AreItems parts.items) : parts.form.IsItem := by
  unfold ArrayParts.form
  split
  · exact isItem_call ".concat" h
  · exact .hostArray h

theorem yields_array {elements : List Node}
    (hv : ShapesBelow visit (Node.arrayExpression elements).size)
    (hg : (Node.arrayExpression elements).Grammatical) :
    Yields (array visit elements) IsItem := by
  have hfits := (grammatical_iff.1 hg).1
  simp only [fits, List.all_eq_true, Bool.or_eq_true] at hfits
  have hstep : ∀ e ∈ elements, ∀ parts : ArrayParts, AreItems parts.items →
      Yields (arrayElement visit parts e) fun parts => AreItems parts.items := by
    intro e hm parts hparts
    have hc : e ∈ (Node.arrayExpression elements).children := hm
    unfold arrayElement
    split
    · rename_i argument
      have ha : argument.isExpression := (grammatical_iff.1 (hg.child hc)).1
      have hspread := ShapesBelow.childOne (hv.descend hc) (hg.child hc)
        (by simp [children]) ha .value
      refine yields_bind hspread ?_
      intro spread hspread
      exact yields_pure (by simpa [AreItems] using ⟨isItem_arrayParts hparts, hspread⟩)
    · rename_i hne
      have he := isExpression_of_ne_spread (hfits e hm) hne
      refine yields_bind (hv.childOne hg hc he .value) fun item hitem => ?_
      exact yields_pure (List.forall_mem_append.2 ⟨hparts, by simpa using hitem⟩)
  refine yields_bind (yields_foldlM hstep (by simp [AreItems])) fun parts hparts => ?_
  exact yields_pure (isItem_arrayParts hparts)

theorem yields_propertyKey (key : Node) : Yields (propertyKey key) (·.isAtom) := by
  cases key with
  | identifier name | numericLiteral raw => exact yields_ok rfl
  | stringLiteral value =>
    refine yields_ok ?_
    split <;> rfl
  | _ => exact yields_error _

/-- The sources of an object under construction are items, and what follows them are entries. -/
structure ObjectParts.Shaped (parts : ObjectParts) : Prop where
  sources : AreItems parts.sources
  entries : AreEntries parts.entries

theorem ObjectParts.Shaped.closed {parts : ObjectParts} (h : parts.Shaped) :
    AreItems parts.closed := by
  unfold ObjectParts.closed
  split
  · exact h.sources
  · exact List.forall_mem_append.2 ⟨h.sources, by simpa using h.entries.hostObject⟩

theorem ObjectParts.Shaped.form {parts : ObjectParts} (h : parts.Shaped) : parts.form.IsItem := by
  unfold ObjectParts.form
  split
  · exact isItem_call _ (List.forall_mem_cons.2 ⟨areEntries_nil.hostObject, h.closed⟩)
  · exact h.entries.hostObject

/-- A member that is no spread yields one entry. -/
theorem yields_objectEntry {member : Node} (hv : ShapesBelow visit member.size)
    (hg : member.Grammatical) : Yields (objectEntry visit member) fun form =>
      ∃ key value, form = .mapEntry key value ∧ key.isAtom ∧ value.IsItem := by
  have hfits := (grammatical_iff.1 hg).1
  cases member with
  | objectProperty key value computed shorthand =>
    simp only [fits, Bool.and_eq_true] at hfits
    refine yields_check (yields_bind (yields_propertyKey key) fun name hname => ?_)
    refine yields_bind (hv.childOne hg (by simp [children]) hfits.2 .value) fun form hform => ?_
    exact yields_pure ⟨name, form, rfl, hname, hform⟩
  | objectMethod kind key params body computed =>
    simp only [fits, Bool.and_eq_true] at hfits
    have hbody : Shapes visit body :=
      hv.child hg (by simp [children]) (standsAlone_of_isBlock hfits.2)
    refine yields_check (yields_bind (yields_propertyKey key) fun name hname => ?_)
    refine yields_bind (yields_function (.inl rfl) (by simp) hbody) fun form hform => ?_
    exact yields_pure ⟨name, form, rfl, hname, hform⟩
  | _ => exact yields_error _

theorem yields_object {properties : List Node}
    (hv : ShapesBelow visit (Node.objectExpression properties).size)
    (hg : (Node.objectExpression properties).Grammatical) :
    Yields (object visit properties) IsItem := by
  have hstep : ∀ m ∈ properties, ∀ parts : ObjectParts, parts.Shaped →
      Yields (objectMember visit parts m) ObjectParts.Shaped := by
    intro m hm parts hparts
    have hc : m ∈ (Node.objectExpression properties).children := hm
    unfold objectMember
    split
    · rename_i argument
      have ha : argument.isExpression := (grammatical_iff.1 (hg.child hc)).1
      have hspread := ShapesBelow.childOne (hv.descend hc) (hg.child hc)
        (by simp [children]) ha .value
      refine yields_bind hspread ?_
      intro source hsource
      refine yields_pure ⟨?_, areEntries_nil⟩
      exact List.forall_mem_append.2 ⟨hparts.closed, by simpa using hsource⟩
    · refine yields_bind (yields_objectEntry (hv.descend hc) (hg.child hc)) ?_
      rintro form ⟨key, value, rfl, hkey, hvalue⟩
      exact yields_pure ⟨hparts.sources, hparts.entries.concat hkey hvalue⟩
  -- The invariant of the fold: sources are items, and what came since the last spread are entries.
  have hstart : ObjectParts.Shaped {} := ⟨by simp [AreItems], areEntries_nil⟩
  exact yields_bind (yields_foldlM hstep hstart) fun parts hparts => yields_pure hparts.form

/-! ### Reading -/

variable {n : Nat}

theorem yields_getter {object property : Node}
    (ho : ∀ context, Yields (visit.one object context) IsItem)
    (hp : ∀ context, Yields (visit.one property context) IsItem) :
    Yields (getter visit object property) IsItem := by
  refine yields_bind (hp _) fun property hproperty => yields_bind (ho _) fun object hobject => ?_
  exact yields_pure (.list (by simp) (by simpa using ⟨hproperty, hobject⟩))

theorem yields_element {object key : Node}
    (ho : ∀ context, Yields (visit.one object context) IsItem)
    (hk : ∀ context, Yields (visit.one key context) IsItem) :
    Yields (element visit object key) IsItem := by
  refine yields_bind (ho _) fun object hobject => yields_bind (hk _) fun key hkey => ?_
  exact yields_pure (isItem_call "aget" (by simpa using ⟨hobject, hkey⟩))

theorem yields_dotted {target : Node} {properties : List Node}
    (ht : ∀ context, Yields (visit.one target context) IsItem)
    (hp : ∀ p ∈ properties, ∀ context, Yields (visit.one p context) IsItem) :
    Yields (dotted visit target properties) IsItem := by
  unfold dotted
  split
  · exact yields_getter ht (hp _ (by simp))
  · have hsteps := yields_mapM fun p hm => hp p hm (.named .getter)
    refine yields_bind (ht _) fun target htarget => yields_bind hsteps fun steps hsteps => ?_
    exact yields_pure (isItem_call ".." (List.forall_mem_cons.2 ⟨htarget, hsteps⟩))

/-- The object and the property of an access are expressions, whether the access is computed or
not. -/
theorem yields_accessParts {object property : Node} {computed : Bool}
    (hv : ShapesBelow visit (Node.memberExpression object property computed).size)
    (hg : (Node.memberExpression object property computed).Grammatical) :
    (∀ context, Yields (visit.one object context) IsItem) ∧
      ∀ context, Yields (visit.one property context) IsItem := by
  have hfits := (grammatical_iff.1 hg).1
  simp only [fits, Bool.and_eq_true] at hfits
  have hproperty : property.isExpression := by
    cases computed with
    | true => exact hfits.2
    | false => exact isExpression_of_isIdentifier hfits.2
  exact ⟨hv.childOne hg (by simp [children]) hfits.1,
    hv.childOne hg (by simp [children]) hproperty⟩

theorem yields_plainMember {node : Node} (hv : ShapesBelow visit node.size)
    (hg : node.Grammatical) : Yields (plainMember visit node) IsItem := by
  unfold plainMember
  split
  · obtain ⟨ho, hk⟩ := yields_accessParts hv hg
    exact yields_element ho hk
  · rename_i object property
    obtain ⟨ht, hi⟩ := dotChain_fits hg rfl
    have htarget := dotChain_target_descendants object property
    have hproperties := dotChain_properties_mem (.memberExpression object property false)
    refine yields_dotted (fun context => ?_) (fun p hm context => ?_)
    · exact hv.one (size_lt_of_mem_descendants htarget) (hg.descendants htarget) ht context
    · exact hv.one (size_lt_of_mem_descendants (hproperties p hm))
        (hg.descendants (hproperties p hm)) (isExpression_of_isIdentifier (hi p hm)) context
  · exact yields_error _

theorem isItem_thisAs (name : String) {form : Form} (h : form.IsItem) : (thisAs name form).IsItem :=
  isItem_call "this-as" (by simpa using ⟨isItem_symbol name, h⟩)

theorem yields_member {node : Node} (hv : ShapesBelow visit node.size) (hg : node.Grammatical) :
    Yields (member visit node) IsItem := by
  unfold member
  split
  · have hsize := size_rebindReceiver receiver node
    have hplain := yields_plainMember (hsize ▸ hv) (hg.rebindReceiver receiver)
    exact yields_bind hplain fun form hform => yields_pure (isItem_thisAs receiver hform)
  · exact yields_plainMember hv hg

/-! ### Writing -/

theorem yields_compound (operator : String) {current value : Form} (hc : current.IsItem)
    (hv : value.IsItem) : Yields (compound operator current value) IsItem := by
  unfold compound
  split
  · exact yields_ok hv
  · exact yields_error _
  · exact yields_error _
  · exact yields_error _
  · exact yields_ok (isItem_call _ (by simpa using ⟨hc, hv⟩))

theorem yields_assignPlace (operator : String) {place value : Form} (hp : place.IsItem)
    (hv : value.IsItem) : Yields (assignPlace operator place value) IsItem := by
  refine yields_bind (yields_compound operator hp hv) fun form hform => ?_
  exact yields_pure (isItem_call "set!" (by simpa using ⟨hp, hform⟩))

theorem yields_assignTo (hv : ShapesBelow visit n) {target : Node} (hsize : target.size < n)
    (hg : target.Grammatical) (operator : String) {value : Form} (hvalue : value.IsItem) :
    Yields (assignTo visit operator target value) IsItem := by
  have hbelow : ShapesBelow visit target.size := hv.mono (Nat.le_of_lt hsize)
  unfold assignTo
  split
  · refine yields_bind (hv.one hsize hg rfl .value) fun place hplace => ?_
    exact yields_assignPlace operator hplace hvalue
  · obtain ⟨ho, hp⟩ := yields_accessParts hbelow hg
    refine yields_bind (yields_getter ho hp) fun place hplace => ?_
    exact yields_assignPlace operator hplace hvalue
  · obtain ⟨ho, hk⟩ := yields_accessParts hbelow hg
    refine yields_bind (ho .callee) fun object hobject => yields_bind (hk .value) fun key hkey => ?_
    have hread : (Form.call "aget" [object, key]).IsItem :=
      isItem_call "aget" (by simpa using ⟨hobject, hkey⟩)
    refine yields_bind (yields_compound operator hread hvalue) fun form hform => ?_
    exact yields_pure (isItem_call "aset" (by simpa using ⟨hobject, hkey, hform⟩))
  · exact yields_error _

theorem yields_assignment {operator : String} {left right : Node}
    (hv : ShapesBelow visit (Node.assignmentExpression operator left right).size)
    (hg : (Node.assignmentExpression operator left right).Grammatical) :
    Yields (assignment visit operator left right) IsItem := by
  have hfits := (grammatical_iff.1 hg).1
  simp only [fits, Bool.and_eq_true] at hfits
  have hl : left ∈ (Node.assignmentExpression operator left right).children := by simp [children]
  have hright := hv.childOne hg (by simp [children]) hfits.2 .value
  have hplain : ∀ target : Node,
      target.size < (Node.assignmentExpression operator left right).size → target.Grammatical →
      Yields (plainAssignment visit operator left target right) IsItem := fun target hsize hgt =>
    yields_check (yields_bind hright fun value hvalue =>
      yields_assignTo hv hsize hgt operator hvalue)
  unfold assignment
  split
  · have hrebound := hplain (left.rebindReceiver placeReceiver)
      (by rw [size_rebindReceiver]; exact size_of_child hl)
      ((hg.child hl).rebindReceiver placeReceiver)
    exact yields_bind hrebound fun form hform => yields_pure (isItem_thisAs placeReceiver hform)
  · exact hplain left (size_of_child hl) (hg.child hl)

theorem yields_unary {operator : String} {argument : Node}
    (hv : ShapesBelow visit (Node.unaryExpression operator argument).size)
    (hg : (Node.unaryExpression operator argument).Grammatical) :
    Yields (unary visit operator argument) IsItem := by
  have hc : argument ∈ (Node.unaryExpression operator argument).children := by simp [children]
  have he : argument.isExpression := (grammatical_iff.1 hg).1
  unfold unary
  split
  · refine yields_bind (hv.childOne hg hc he .value) fun form hform => ?_
    exact yields_pure (isItem_call _ (by simpa using hform))
  · split
    · obtain ⟨ho, -⟩ := yields_accessParts (hv.descend hc) (hg.child hc)
      refine yields_bind (ho .callee) fun object hobject => ?_
      exact yields_pure (isItem_call "js-delete" (by simpa using ⟨hobject, .atom rfl⟩))
    · obtain ⟨ho, hk⟩ := yields_accessParts (hv.descend hc) (hg.child hc)
      refine yields_bind (hk .value) fun key hkey => ?_
      refine yields_bind (ho .callee) fun object hobject => ?_
      exact yields_pure (isItem_call "js-delete" (by simpa using ⟨hobject, hkey⟩))
    · exact yields_error _

/-! ### Calling -/

theorem yields_arguments (hv : ShapesBelow visit n) {nodes : List Node}
    (hsize : ∀ a ∈ nodes, a.size < n) (hg : ∀ a ∈ nodes, a.Grammatical)
    (hfits : ∀ a ∈ nodes, a.isExpression ∨ a.isSpread) :
    Yields (arguments visit nodes) AreItems := by
  refine yields_mapM fun a hm => ?_
  unfold argument
  split
  · exact yields_error _
  · rename_i hne
    exact hv.one (hsize a hm) (hg a hm) (isExpression_of_ne_spread (hfits a hm) hne) .value

theorem yields_callFront (hv : ShapesBelow visit n) {callee : Node} (hsize : callee.size < n)
    (hg : callee.Grammatical) (he : callee.isExpression) :
    Yields (callFront visit callee) fun forms => forms ≠ [] ∧ AreItems forms := by
  have hbelow : ShapesBelow visit callee.size := hv.mono (Nat.le_of_lt hsize)
  unfold callFront
  split
  · obtain ⟨ho, hp⟩ := yields_accessParts hbelow hg
    refine yields_bind (hp _) fun method hmethod => yields_bind (ho _) fun object hobject => ?_
    exact yields_pure ⟨by simp, by simpa [AreItems] using ⟨hmethod, hobject⟩⟩
  · obtain ⟨ho, hk⟩ := yields_accessParts hbelow hg
    refine yields_bind (yields_element ho hk) fun form hform => ?_
    exact yields_pure ⟨by simp, by simpa [AreItems] using hform⟩
  · refine yields_bind (hv.one hsize hg he .callee) fun form hform => ?_
    exact yields_pure ⟨by simp, by simpa [AreItems] using hform⟩

theorem yields_callArguments {callee : Node} {nodes : List Node}
    (hv : ShapesBelow visit (Node.callExpression callee nodes).size)
    (hg : (Node.callExpression callee nodes).Grammatical) :
    Yields (arguments visit nodes) AreItems := by
  have hfits := (grammatical_iff.1 hg).1
  simp only [fits, Bool.and_eq_true, List.all_eq_true, Bool.or_eq_true] at hfits
  have hm : ∀ a ∈ nodes, a ∈ (Node.callExpression callee nodes).children := by
    simp +contextual [children]
  exact yields_arguments hv (fun a h => size_of_child (hm a h)) (fun a h => hg.child (hm a h))
    hfits.2

theorem yields_call {callee : Node} {nodes : List Node}
    (hv : ShapesBelow visit (Node.callExpression callee nodes).size)
    (hg : (Node.callExpression callee nodes).Grammatical) :
    Yields (call visit callee nodes) IsItem := by
  have hfits := (grammatical_iff.1 hg).1
  simp only [fits, Bool.and_eq_true] at hfits
  have hc : callee ∈ (Node.callExpression callee nodes).children := by simp [children]
  have hargs := yields_callArguments hv hg
  have hplain : ∀ node : Node, node.size < (Node.callExpression callee nodes).size →
      node.Grammatical → node.isExpression → Yields (plainCall visit node nodes) IsItem := by
    intro node hsize hgn he
    refine yields_bind (yields_callFront hv hsize hgn he) fun front hfront => ?_
    refine yields_bind hargs fun args hargs => yields_pure (.list ?_ ?_)
    · simp [hfront.1]
    · exact List.forall_mem_append.2 ⟨hfront.2, hargs⟩
  unfold call
  split
  · have hrebound := hplain (callee.rebindReceiver receiver)
      (by rw [size_rebindReceiver]; exact size_of_child hc)
      ((hg.child hc).rebindReceiver receiver) (by rw [isExpression_rebindReceiver]; exact hfits.1)
    exact yields_bind hrebound fun form hform => yields_pure (isItem_thisAs receiver hform)
  · exact hplain callee (size_of_child hc) (hg.child hc) hfits.1

theorem yields_stage {link : CallLink}
    (hv : ShapesBelow visit (Node.callExpression link.callee link.arguments).size)
    (hg : (Node.callExpression link.callee link.arguments).Grammatical) :
    Yields (stage visit link) IsItem := by
  have hargs := yields_callArguments hv hg
  have hc : link.callee ∈ (Node.callExpression link.callee link.arguments).children := by
    simp [children]
  have hbelow := hv.descend hc
  have hgc := hg.child hc
  unfold stage
  split
  · rename_i object property computed hcallee
    rw [hcallee] at hbelow hgc
    refine yields_bind ((yields_accessParts hbelow hgc).2 _) fun method hmethod => ?_
    refine yields_bind hargs fun args hargs => yields_pure (.list (by simp) ?_)
    exact List.forall_mem_cons.2 ⟨hmethod, hargs⟩
  · exact yields_error _

theorem yields_callExpression {callee : Node} {nodes : List Node}
    (hv : ShapesBelow visit (Node.callExpression callee nodes).size)
    (hg : (Node.callExpression callee nodes).Grammatical) :
    Yields (callExpression visit callee nodes) IsItem := by
  have hlink : ∀ link ∈ (Node.callExpression callee nodes).callChain,
      ShapesBelow visit (Node.callExpression link.callee link.arguments).size ∧
        (Node.callExpression link.callee link.arguments).Grammatical := fun link hl =>
    ⟨hv.mono (size_le_of_mem_subtrees (callChain_mem hl)), hg.subtree (callChain_mem hl)⟩
  unfold callExpression
  dsimp only
  split
  · rename_i first others _ hlinks
    rw [hlinks, List.forall_mem_cons] at hlink
    refine yields_bind (yields_call hlink.1.1 hlink.1.2) fun start hstart => ?_
    have hstages := yields_mapM fun link hl =>
      yields_stage (hlink.2 link hl).1 (hlink.2 link hl).2
    refine yields_bind hstages fun stages hstages => yields_pure (isItem_call "->" ?_)
    exact List.forall_mem_cons.2 ⟨hstart, hstages⟩
  · exact yields_call hv hg

theorem yields_newExpression {callee : Node} {nodes : List Node}
    (hv : ShapesBelow visit (Node.newExpression callee nodes).size)
    (hg : (Node.newExpression callee nodes).Grammatical) :
    Yields (newExpression visit callee nodes) IsItem := by
  have hfits := (grammatical_iff.1 hg).1
  simp only [fits, Bool.and_eq_true, List.all_eq_true, Bool.or_eq_true] at hfits
  have hm : ∀ a ∈ nodes, a ∈ (Node.newExpression callee nodes).children := by
    simp +contextual [children]
  have hargs := yields_arguments hv (fun a h => size_of_child (hm a h))
    (fun a h => hg.child (hm a h)) hfits.2
  refine yields_bind (hv.childOne hg (by simp [children]) hfits.1 .callee) fun form hform => ?_
  refine yields_bind hargs fun args hargs => yields_pure (isItem_call "new" ?_)
  exact List.forall_mem_cons.2 ⟨hform, hargs⟩

/-! ### Elements -/

theorem Shapes.tag {node : Node} (h : Shapes visit node) (ht : node.isTag) (context : Context) :
    Yields (visit.one node context) (·.isName) := by
  refine yields_bind (h context) fun forms hforms => ?_
  obtain ⟨form, hname, rfl⟩ := hforms.tag ht
  exact yields_pure hname

/-- The value of an attribute is an item, since a marker becomes `nil`. -/
theorem yields_attributeValue {value : Option Node} (h : ∀ v ∈ value, Shapes visit v) :
    Yields (attributeValue visit value) IsItem := by
  cases value with
  | none => exact yields_ok (.atom rfl)
  | some value =>
    have hone : Yields (visit.one value .value) fun form => form.isMarker ∨ form.IsItem := by
      refine yields_bind (h value rfl .value) fun forms hforms => yields_pure ?_
      rcases hforms.items with hitems | ⟨-, marker, hmarker, rfl⟩
      · exact .inr (isItem_sequence hitems)
      · exact .inl hmarker
    refine yields_bind hone fun form hform => yields_pure ?_
    split
    · exact isItem_symbol "nil"
    · rename_i hnot
      exact hform.resolve_left hnot

theorem yields_attributeEntry {node : Node} (hv : ShapesBelow visit node.size)
    (hg : node.Grammatical) : Yields (attributeEntry visit node) IsAttributeEntry := by
  cases node with
  | jsxAttribute name value =>
    have hfits := (grammatical_iff.1 hg).1
    simp only [fits, Bool.and_eq_true, Option.all_eq_true] at hfits
    have hname : Shapes visit name :=
      hv.child hg (by simp [children]) (by simp [standsAlone, hfits.1])
    have hvalue : ∀ v ∈ value, Shapes visit v := fun v hm =>
      hv.child hg (by simp_all [children]) (by simp [standsAlone, hfits.2 v hm])
    refine yields_bind (yields_attributeValue hvalue) fun value hvalue => ?_
    refine yields_bind (hname.tag hfits.1 .value) fun key hkey => ?_
    exact yields_pure ⟨(key, value), rfl, hkey, hvalue⟩
  | _ => exact yields_error _

theorem exists_entries {p : Form × Form → Prop} {forms : List Form}
    (h : ∀ form ∈ forms, ∃ pair, form = .mapEntry pair.1 pair.2 ∧ p pair) :
    ∃ pairs, forms = entries pairs ∧ ∀ pair ∈ pairs, p pair := by
  induction forms with
  | nil => exact ⟨[], rfl, by simp⟩
  | cons form forms ih =>
    rw [List.forall_mem_cons] at h
    obtain ⟨pair, rfl, hpair⟩ := h.1
    obtain ⟨pairs, rfl, hpairs⟩ := ih h.2
    exact ⟨pair :: pairs, rfl, List.forall_mem_cons.2 ⟨hpair, hpairs⟩⟩

theorem yields_attributeMap {nodes : List Node}
    (h : ∀ a ∈ nodes, Yields (attributeEntry visit a) IsAttributeEntry) :
    Yields (attributeMap visit nodes) fun form =>
      ∃ pairs, form = attributeForm pairs ∧ ∀ pair ∈ pairs, pair.1.isName ∧ pair.2.IsItem := by
  unfold attributeMap
  split
  · exact yields_ok ⟨[], rfl, by simp⟩
  · rename_i hne
    have hentries := (yields_mapM h).and (yields_mapM_length _ nodes)
    refine yields_bind hentries fun forms hforms => yields_pure ?_
    obtain ⟨hforms, hlength⟩ := hforms
    obtain ⟨pairs, rfl, hpairs⟩ := exists_entries hforms
    refine ⟨pairs, ?_, hpairs⟩
    have hpairs : ¬pairs.isEmpty := by
      rw [entries, List.length_map] at hlength
      rw [List.isEmpty_iff_length_eq_zero] at hne ⊢
      omega
    rw [attributeForm, if_neg hpairs]

theorem yields_jsxElement {opening : Node} {items : List Node}
    (hv : ShapesBelow visit (Node.jsxElement opening items).size)
    (hg : (Node.jsxElement opening items).Grammatical) :
    Yields (jsxElement visit opening items) IsItem := by
  have hfits := (grammatical_iff.1 hg).1
  simp only [fits, Bool.and_eq_true, List.all_eq_true] at hfits
  have hc : opening ∈ (Node.jsxElement opening items).children := by simp [children]
  have hitems : ∀ m ∈ items, Yields (visit m .value) fun forms =>
      ∀ form ∈ forms, ¬form.isMarker → form.IsItem := by
    intro m hm
    have hshapes : Shapes visit m :=
      hv.child hg (by simp [children, hm]) (by simp [standsAlone, hfits.2 m hm])
    refine (hshapes .value).imp fun forms hforms form hmem hnot => ?_
    exact areItems_filter hforms form (List.mem_filter.2 ⟨hmem, by simpa using hnot⟩)
  have hgo := hg.child hc
  have hbelow := hv.descend hc
  obtain ⟨name, attributes, selfClosing, rfl⟩ := eq_jsxOpeningElement_of_isOpening hfits.1
  have hfitso := (grammatical_iff.1 hgo).1
  simp only [fits, Bool.and_eq_true, List.all_eq_true] at hfitso
  have hname : Shapes visit name :=
    hbelow.child hgo (by simp [children]) (by simp [standsAlone, hfitso.1])
  have hentry : ∀ a ∈ attributes, Yields (attributeEntry visit a) IsAttributeEntry := by
    intro a hm
    have ha : a ∈ (Node.jsxOpeningElement name attributes selfClosing).children := by
      simp [children, hm]
    exact yields_attributeEntry (hbelow.descend ha) (hgo.child ha)
  refine yields_bind (hname.tag hfitso.1 .tag) fun tag htag => ?_
  refine yields_bind (yields_attributeMap hentry) fun form hform => ?_
  refine yields_bind (yields_mapM hitems) fun lists hlists => yields_pure ?_
  obtain ⟨pairs, rfl, hpairs⟩ := hform
  refine .element htag (fun p hp => (hpairs p hp).1) (fun p hp => (hpairs p hp).2) ?_
  intro form hm hnot
  obtain ⟨forms, hforms, hm⟩ := List.mem_flatten.1 hm
  exact hlists forms hforms form hm hnot

end Rule

end ScriptForms
