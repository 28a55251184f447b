import ScriptForms.Proofs.Gauge.Statement

/-!
# The measures of expressions

One lemma per rule for compound literals, accesses, assignments, calls and elements. A chain of
accesses that starts at `this` is converted with a name at its root, and the list around it makes up
for the difference (`weighs_thisAs`).
-/

namespace ScriptForms.Rule

open Node Form Gauge

variable {M : Type} [AddMonoid M] {g : Gauge M} {visit : Visit}

/-! ### Literals -/

/-- No expression of a template is left over, since its texts outnumber them. -/
theorem rel_templateItems (hv : Weighs g visit) {texts : List String}
    {expressions : List Node} (hlength : expressions.length ≤ texts.length)
    (h : ∀ e ∈ expressions, g.Covers e) :
    Yields (templateItems visit texts expressions) fun forms =>
      g.Rel (g.weights forms) (g.tallies expressions) := by
  induction texts generalizing expressions with
  | nil =>
    obtain rfl : expressions = [] := List.eq_nil_of_length_eq_zero (Nat.le_zero.1 hlength)
    exact yields_ok g.zero
  | cons text texts ih =>
    cases expressions with
    | nil =>
      refine yields_bind (@ih [] (by simp) (by simp)) fun forms hforms => yields_pure ?_
      simpa using hforms
    | cons expression expressions =>
      rw [List.forall_mem_cons] at h
      refine yields_bind (hv.one h.1 rfl) fun value hvalue => ?_
      refine yields_bind (ih (Nat.le_of_succ_le_succ hlength) h.2) fun forms hforms => ?_
      exact yields_pure (by simpa using g.add hvalue.rel hforms)

theorem weighs_template (hv : Weighs g visit) {texts : List String} {expressions : List Node}
    (h : g.Covers (.templateLiteral texts expressions)) :
    Yields (template visit texts expressions)
      (g.WeighsOne (g.tally (.templateLiteral texts expressions))) := by
  have hfits := h.fits
  simp only [fits, Bool.and_eq_true, beq_iff_eq] at hfits
  rw [g.tally_of_own rfl]
  refine yields_bind (rel_templateItems hv (by omega) fun e he => h.child he) ?_
  exact fun forms hforms => yields_pure (weighsOne_call (by decide) hforms)

theorem weight_arrayParts (parts : ArrayParts) : g.weight parts.form = g.weights parts.items := by
  unfold ArrayParts.form
  split
  · exact g.weight_call (by decide) _
  · exact g.weight_hostArray _

theorem rel_arrayElement (hv : Weighs g visit) {parts : ArrayParts} {total : M}
    (hparts : g.Rel (g.weights parts.items) total) {element : Node}
    (h : g.Covers element) :
    Yields (arrayElement visit parts element) fun next =>
      g.Rel (g.weights next.items) (total + g.tally element) := by
  unfold arrayElement
  split
  · rw [g.tally_of_single rfl rfl]
    refine yields_bind (hv.one (h.child (by simp [children])) rfl) fun spread hspread => ?_
    exact yields_pure (by simpa [weight_arrayParts] using g.add hparts hspread.rel)
  · refine yields_bind (hv.one h rfl) fun item hitem => ?_
    exact yields_pure (by simpa using g.add hparts hitem.rel)

/-- Each step of a fold adds the measure of its item. -/
theorem rel_foldlM {β : Type} {f : β → Node → Except Fault β} {weight : β → M}
    {nodes : List Node}
    (h : ∀ node ∈ nodes, ∀ state total, g.Rel (weight state) total →
      Yields (f state node) fun next => g.Rel (weight next) (total + g.tally node))
    {state : β} {total : M} (hs : g.Rel (weight state) total) :
    Yields (nodes.foldlM f state) fun next => g.Rel (weight next) (total + g.tallies nodes) := by
  induction nodes generalizing state total with
  | nil => exact yields_pure (by simpa using hs)
  | cons node nodes ih =>
    rw [List.forall_mem_cons] at h
    rw [List.foldlM_cons]
    refine yields_bind (h.1 state total hs) fun next hnext => ?_
    simpa [add_assoc] using ih h.2 hnext

theorem weighs_array (hv : Weighs g visit) {elements : List Node}
    (h : g.Covers (.arrayExpression elements)) :
    Yields (array visit elements) (g.WeighsOne (g.tally (.arrayExpression elements))) := by
  have hparts : Yields (elements.foldlM (arrayElement visit) {}) fun parts =>
      g.Rel (g.weights parts.items) (0 + g.tallies elements) := by
    refine rel_foldlM (fun element he parts total hparts => ?_) g.zero
    exact rel_arrayElement hv hparts (h.child he)
  rw [g.tally_of_own rfl]
  refine yields_bind hparts fun parts hparts => yields_pure ⟨?_, ?_⟩
  · rw [weight_arrayParts]
    simpa [below, kept, children] using hparts
  · unfold ArrayParts.form
    split <;> exact isHead_of_symbol?_eq_none rfl

/-- The form of a key measures nothing, and neither does the key if it is measured at all. -/
theorem rel_propertyKey (g : Gauge M) (key : Node) :
    Yields (propertyKey key) fun form =>
      g.Rel (g.weight form) (g.tallies (if g.keyed then [key] else [])) := by
  have hkey : ∀ form : Form, g.weight form = 0 → (g.keyed → g.Rel 0 (g.tally key)) →
      g.Rel (g.weight form) (g.tallies (if g.keyed then [key] else [])) := by
    intro form hform hrel
    rw [hform]
    split
    · rename_i hkeyed
      simpa using hrel hkeyed
    · exact g.zero
  cases key with
  | identifier name =>
    refine yields_ok (hkey _ (by simp) fun _ => ?_)
    simpa using g.idle g.zero
  | numericLiteral raw =>
    refine yields_ok (hkey _ (by simp) fun hkeyed => ?_)
    have htotal : g.tally (.numericLiteral raw) = 0 := by
      rw [g.tally_of_below rfl]
      exact g.key _ hkeyed
    rw [htotal]
    exact g.zero
  | stringLiteral value =>
    refine yields_ok (hkey _ ?_ fun _ => ?_)
    · split <;> simp
    · rw [g.tally_of_below rfl]
      exact g.zero
  | _ => exact yields_error _

theorem rel_objectEntry (hv : Weighs g visit) {member : Node} (h : g.Covers member) :
    Yields (objectEntry visit member) fun form => g.Rel (g.weight form) (g.tally member) := by
  cases member with
  | objectProperty key value computed shorthand =>
    rw [g.tally_of_own rfl]
    refine yields_check ?_
    refine yields_bind (rel_propertyKey g key) fun form hform => ?_
    refine yields_bind (hv.one (h.child (by simp [children])) rfl) fun value hvalue => ?_
    exact yields_pure (by simpa [below] using g.add hform hvalue.rel)
  | objectMethod kind key params body computed =>
    have hparams : ∀ p ∈ params, g.Covers p := fun p hp => h.child (by simp [children, hp])
    have hvalue := weighs_lambda hv hparams (h.child (by simp [children]) : g.Covers body)
    rw [g.tally_of_own rfl]
    refine yields_check ?_
    refine yields_bind (rel_propertyKey g key) fun form hform => ?_
    refine yields_bind hvalue fun value hvalue => yields_pure ?_
    simpa [below] using g.add hform hvalue.rel
  | _ => exact yields_error _

/-- The measure of an object under construction. -/
def ObjectParts.weight (g : Gauge M) (parts : ObjectParts) : M :=
  g.weights parts.sources + g.weights parts.entries

theorem ObjectParts.weights_closed (parts : ObjectParts) :
    g.weights parts.closed = parts.weight g := by
  unfold ObjectParts.closed ObjectParts.weight
  split
  · rename_i hempty
    rw [List.isEmpty_iff] at hempty
    simp [hempty]
  · simp

/-- Until a spread has been met, an object under construction has no sources. -/
theorem ObjectParts.weight_form {parts : ObjectParts}
    (h : parts.spread = false → parts.sources = []) : g.weight parts.form = parts.weight g := by
  unfold ObjectParts.form
  split
  · rw [g.weight_call (isPlainWord_hostName (by decide))]
    simp [ObjectParts.weights_closed]
  · rename_i hspread
    simp [ObjectParts.weight, h (by simpa using hspread)]

theorem rel_objectMember (hv : Weighs g visit) {parts : ObjectParts} {total : M}
    (hparts : g.Rel (parts.weight g) total) {member : Node} (h : g.Covers member) :
    Yields (objectMember visit parts member) fun next =>
      g.Rel (next.weight g) (total + g.tally member) := by
  unfold objectMember
  split
  · rw [g.tally_of_single rfl rfl]
    refine yields_bind (hv.one (h.child (by simp [children])) rfl) fun source hsource => ?_
    refine yields_pure ?_
    rw [← parts.weights_closed] at hparts
    simpa [ObjectParts.weight] using g.add hparts hsource.rel
  · refine yields_bind (rel_objectEntry hv h) fun entry hentry => yields_pure ?_
    simpa [ObjectParts.weight, add_assoc] using g.add hparts hentry

theorem yields_objectMember_sources (parts : ObjectParts) (member : Node)
    (h : parts.spread = false → parts.sources = []) :
    Yields (objectMember visit parts member) fun next =>
      next.spread = false → next.sources = [] := by
  unfold objectMember
  split
  · exact yields_bind (fun _ _ => trivial) fun source _ => yields_pure (by simp)
  · exact yields_bind (fun _ _ => trivial) fun entry _ => yields_pure h

theorem weighs_object (hv : Weighs g visit) {properties : List Node}
    (h : g.Covers (.objectExpression properties)) :
    Yields (object visit properties) (g.WeighsOne (g.tally (.objectExpression properties))) := by
  have hparts : Yields (properties.foldlM (objectMember visit) {}) fun parts =>
      g.Rel (parts.weight g) (0 + g.tallies properties) := by
    refine rel_foldlM (fun member hm parts total hparts => ?_)
      (by simpa [ObjectParts.weight] using g.zero)
    exact rel_objectMember hv hparts (h.child hm)
  have hsources : Yields (properties.foldlM (objectMember visit) {}) fun parts =>
      parts.spread = false → parts.sources = [] :=
    yields_foldlM (fun member _ parts => yields_objectMember_sources parts member) fun _ => rfl
  rw [g.tally_of_own rfl]
  refine yields_bind (hparts.and hsources) fun parts hparts => yields_pure ⟨?_, ?_⟩
  · rw [ObjectParts.weight_form hparts.2]
    simpa [below, kept, children] using hparts.1
  · unfold ObjectParts.form
    split <;> exact isHead_of_symbol?_eq_none rfl

/-! ### Reading -/

/-- The name of a property stands in front of its object. -/
theorem weighs_getter (hv : Weighs g visit) {object property : Node} (ho : g.Covers object)
    (hp : g.Covers property) (hi : property.isIdentifier) :
    Yields (getter visit object property)
      (g.WeighsOne (g.reached object + g.tally property)) := by
  refine yields_bind (hv.one hp rfl) fun name hname => ?_
  refine yields_bind (hv.callee ho) fun object hobject => yields_pure ?_
  rw [← g.tally_comm_of_isIdentifier hi]
  exact (hname.singleton.append hobject.singleton).list

theorem weighs_element (hv : Weighs g visit) {object key : Node} (ho : g.Covers object)
    (hk : g.Covers key) :
    Yields (element visit object key) (g.WeighsOne (g.reached object + g.tally key)) := by
  refine yields_bind (hv.callee ho) fun object hobject => ?_
  refine yields_bind (hv.one hk rfl) fun key hkey => ?_
  refine yields_pure (weighsOne_call (by decide) ?_)
  simpa using g.add hobject.rel hkey.rel

theorem weighs_dotted (hv : Weighs g visit) {target : Node} (ht : g.Covers target)
    {properties : List Node} (hp : ∀ p ∈ properties, g.Covers p ∧ p.isIdentifier) :
    Yields (dotted visit target properties)
      (g.WeighsOne (g.reached target + g.tallies properties)) := by
  unfold dotted
  split
  · rename_i property
    obtain ⟨hproperty, hi⟩ := hp property (by simp)
    simpa using weighs_getter hv ht hproperty hi
  · refine yields_bind (hv.callee ht) fun target htarget => ?_
    have hsteps := weighs_trees fun p hm =>
      @Weighs.one _ _ _ _ _ hv (hp p hm).1 (.named .getter) rfl
    refine yields_bind hsteps fun steps hsteps => yields_pure (weighsOne_call (by decide) ?_)
    simpa using g.add htarget.rel hsteps.rel

theorem weighs_plainMember (hv : Weighs g visit) {node : Node} (h : g.Covers node) :
    Yields (plainMember visit node) (g.WeighsOne (g.tally node)) := by
  unfold plainMember
  split
  · rw [g.tally_memberExpression]
    exact weighs_element hv h.access.1 h.access.2
  · rename_i object property
    have hfits := dotChain_fits h.grammatical rfl
    -- The chain is taken apart from its end, and its parts are measured from its start.
    rw [g.tally_memberExpression, ← g.reached_memberExpression, ← g.reached_dotChain]
    refine weighs_dotted hv (h.descendant (dotChain_target_descendants _ _)) fun p hm => ?_
    exact ⟨h.descendant (dotChain_properties_mem _ p hm), hfits.2 p hm⟩
  · exact yields_error _

theorem accessRoot_isThis {node : Node} (h : node.isReceiverRooted) : node.accessRoot.isThis := by
  simp only [isReceiverRooted, Bool.and_eq_true] at h
  exact h.2

/-- The list around a form that was converted with a name in place of `this`. -/
theorem weighs_thisAs {text : String} (ht : text ∈ [receiver, placeReceiver]) {node : Node}
    (hr : node.accessRoot.isThis) {others : M} {x : Except Fault Form}
    (h : Yields x (g.WeighsOne (g.reached (node.rebindReceiver text) + others))) :
    Yields (return .thisAs text (← x)) (g.WeighsOne (g.reached node + others)) := by
  have htotal : g.reached (node.rebindReceiver text) + others + g.this =
      g.reached node + others + g.name text := by
    rw [add_assoc, ← g.this_comm, ← add_assoc, g.reached_rebindReceiver ht hr, add_assoc,
      g.name_comm, add_assoc]
  exact yields_bind h fun form hform =>
    yields_pure ⟨g.capture ht htotal hform.rel, isHead_of_symbol?_eq_none rfl⟩

/-- The same for a chain of accesses that does not stand where the scope is asked about a name. -/
theorem weighs_thisAs_access {text : String} (ht : text ∈ [receiver, placeReceiver]) {node : Node}
    (hr : node.isReceiverRooted) {others : M} {x : Except Fault Form}
    (h : Yields x (g.WeighsOne (g.tally (node.rebindReceiver text) + others))) :
    Yields (return .thisAs text (← x)) (g.WeighsOne (g.tally node + others)) := by
  cases node with
  | memberExpression object property computed =>
    rw [rebindReceiver, tally_memberExpression, ← reached_memberExpression] at h
    rw [tally_memberExpression, ← reached_memberExpression]
    exact weighs_thisAs ht (accessRoot_isThis hr) h
  | _ => cases hr

theorem weighs_member (hv : Weighs g visit) {node : Node} (h : g.Covers node) :
    Yields (member visit node) (g.WeighsOne (g.tally node)) := by
  unfold member
  split
  · rename_i hr
    have hrebound := weighs_plainMember hv (h.rebindReceiver (by simp : receiver ∈ _))
    rw [← add_zero (g.tally _)] at hrebound
    simpa using weighs_thisAs_access (by simp) hr hrebound
  · exact weighs_plainMember hv h

/-! ### Writing -/

/-- The value that an assignment stores, behind its place. A compound assignment repeats the
place. -/
theorem rel_compound {operator : String} {left right : Node}
    (ha : g.Admits (.assignmentExpression operator left right)) {place value : Form} {total : M}
    (h : g.Rel (g.weight place + g.weight value) total) :
    Yields (compound operator place value) fun form =>
      g.Rel (g.weight place + g.weight form) total := by
  unfold compound
  split
  · exact yields_ok h
  iterate 3 exact yields_error _
  · rename_i hne _ _ _
    refine yields_ok ?_
    rw [g.weight_idleCall (g.word ha rfl)]
    simpa using g.again ha hne h

theorem weighs_assignPlace {operator : String} {left right : Node}
    (ha : g.Admits (.assignmentExpression operator left right)) {place value : Form} {total : M}
    (h : g.Rel (g.weight place + g.weight value) total) :
    Yields (assignPlace operator place value) (g.WeighsOne total) := by
  refine yields_bind (rel_compound ha h) fun form hform => ?_
  exact yields_pure (weighsOne_call (by decide) (by simpa using hform))

theorem weighs_assignTo (hv : Weighs g visit) {operator : String} {left right : Node}
    (ha : g.Admits (.assignmentExpression operator left right)) {target : Node}
    (ht : g.Covers target) {value : Form} {other : M} (hvalue : g.Rel (g.weight value) other) :
    Yields (assignTo visit operator target value) (g.WeighsOne (g.tally target + other)) := by
  unfold assignTo
  split
  · refine yields_bind (hv.one ht rfl) fun place hplace => ?_
    exact weighs_assignPlace ha (g.add hplace.rel hvalue)
  · obtain ⟨ho, hp⟩ := ht.access
    rw [g.tally_memberExpression]
    refine yields_bind (weighs_getter hv ho hp ht.isIdentifier_property) fun place hplace => ?_
    exact weighs_assignPlace ha (g.add hplace.rel hvalue)
  · rename_i object key
    obtain ⟨ho, hk⟩ := ht.access
    rw [g.tally_memberExpression]
    refine yields_bind (hv.callee ho) fun place hobject => ?_
    refine yields_bind (hv.one hk rfl) fun step hkey => ?_
    have hread :
        g.Rel (g.weight (.call "aget" [place, step])) (g.reached object + g.tally key) := by
      rw [g.weight_call (by decide)]
      simpa using g.add hobject.rel hkey.rel
    refine yields_bind (rel_compound ha (g.add hread hvalue)) fun form hform => ?_
    refine yields_pure (weighsOne_call (by decide) ?_)
    rw [g.weight_call (by decide)] at hform
    simpa [add_assoc] using hform
  · exact yields_error _

theorem weighs_assignment (hv : Weighs g visit) {operator : String} {left right : Node}
    (h : g.Covers (.assignmentExpression operator left right)) :
    Yields (assignment visit operator left right)
      (g.WeighsOne (g.tally (.assignmentExpression operator left right))) := by
  have hleft : g.Covers left := h.child (by simp [children])
  have hright : g.Covers right := h.child (by simp [children])
  have hplain : ∀ target : Node, g.Covers target →
      Yields (plainAssignment visit operator left target right)
        (g.WeighsOne (g.tally target + g.tally right)) := by
    intro target ht
    unfold plainAssignment
    -- The value is converted before its place, but stands behind it in the form.
    refine yields_check (yields_bind (hv.one hright rfl) fun value hvalue => ?_)
    exact weighs_assignTo hv h.admits ht hvalue.rel
  have htotal : g.tally (.assignmentExpression operator left right) =
      g.tally left + g.tally right := by
    rw [g.tally_of_own rfl]
    simp [below, kept, children]
  rw [htotal]
  unfold assignment
  split
  · rename_i hr
    exact weighs_thisAs_access (by simp) hr (hplain _ (hleft.rebindReceiver (by simp)))
  · exact hplain left hleft

theorem weighs_unary (hv : Weighs g visit) {operator : String} {argument : Node}
    (h : g.Covers (.unaryExpression operator argument)) :
    Yields (unary visit operator argument)
      (g.WeighsOne (g.tally (.unaryExpression operator argument))) := by
  have ha : g.Covers argument := h.child (by simp [children])
  rw [g.tally_of_single rfl rfl]
  unfold unary
  split
  · refine yields_bind (hv.one ha rfl) fun form hform => ?_
    exact yields_pure (weighsOne_idleCall (g.word h.admits rfl) (by simpa using hform.rel))
  · split
    · rename_i object name
      refine yields_bind (hv.callee ha.access.1) fun object hobject => ?_
      refine yields_pure (weighsOne_call (by decide) ?_)
      rw [g.tally_memberExpression, g.tally_identifier]
      simpa using g.idle hobject.rel
    · -- The key is converted first, and the object stands in front of it.
      refine yields_bind (hv.one ha.access.2 rfl) fun key hkey => ?_
      refine yields_bind (hv.callee ha.access.1) fun object hobject => ?_
      refine yields_pure (weighsOne_call (by decide) ?_)
      rw [g.tally_memberExpression]
      simpa using g.add hobject.rel hkey.rel
    · exact yields_error _

/-! ### Calling -/

theorem weighs_arguments (hv : Weighs g visit) {nodes : List Node} (h : ∀ a ∈ nodes, g.Covers a) :
    Yields (arguments visit nodes) (g.Weighs (g.tallies nodes)) := by
  refine weighs_trees fun a ha => ?_
  unfold argument
  split
  · exact yields_error _
  · exact hv.one (h a ha) rfl

theorem weighs_callFront (hv : Weighs g visit) {callee : Node} (h : g.Covers callee) :
    Yields (callFront visit callee) (g.Weighs (g.reached callee)) := by
  unfold callFront
  split
  · obtain ⟨ho, hp⟩ := h.access
    rw [g.reached_memberExpression, ← g.tally_comm_of_isIdentifier h.isIdentifier_property]
    refine yields_bind (hv.one hp rfl) fun method hmethod => ?_
    refine yields_bind (hv.callee ho) fun object hobject => ?_
    exact yields_pure (hmethod.singleton.append hobject.singleton)
  · rw [g.reached_memberExpression]
    refine yields_bind (weighs_element hv h.access.1 h.access.2) ?_
    exact fun form hform => yields_pure hform.singleton
  · exact yields_bind (hv.callee h) fun form hform => yields_pure hform.singleton

theorem weighs_call (hv : Weighs g visit) {callee : Node} {nodes : List Node}
    (h : g.Covers (.callExpression callee nodes)) :
    Yields (call visit callee nodes) (g.WeighsOne (g.tally (.callExpression callee nodes))) := by
  obtain ⟨hcallee, hnodes⟩ := h.call
  have hplain : ∀ node : Node, g.Covers node →
      Yields (plainCall visit node nodes) (g.WeighsOne (g.reached node + g.tallies nodes)) := by
    intro node hnode
    refine yields_bind (weighs_callFront hv hnode) fun front hfront => ?_
    refine yields_bind (weighs_arguments hv hnodes) fun args hargs => ?_
    exact yields_pure (hfront.append hargs).list
  rw [g.tally_callExpression]
  unfold call
  split
  · rename_i hr
    have hroot := accessRoot_isThis hr
    exact weighs_thisAs (by simp) hroot (hplain _ (hcallee.rebindReceiver (by simp)))
  · exact hplain callee hcallee

theorem weighs_stage (hv : Weighs g visit) {link : CallLink}
    (h : g.Covers (.callExpression link.callee link.arguments)) :
    Yields (stage visit link) (g.WeighsOne (g.stageTally link)) := by
  obtain ⟨hcallee, hnodes⟩ := h.call
  unfold stage
  split
  · rename_i object property computed heq
    rw [heq] at hcallee
    rw [stageTally, heq]
    refine yields_bind (hv.one hcallee.access.2 rfl) fun method hmethod => ?_
    refine yields_bind (weighs_arguments hv hnodes) fun args hargs => ?_
    exact yields_pure (hmethod.singleton.append hargs).list
  · exact yields_error _

theorem weighs_callExpression (hv : Weighs g visit) {callee : Node} {nodes : List Node}
    (h : g.Covers (.callExpression callee nodes)) :
    Yields (callExpression visit callee nodes)
      (g.WeighsOne (g.tally (.callExpression callee nodes))) := by
  unfold callExpression
  dsimp only
  split
  · rename_i first others _ hlinks
    have hlink : ∀ link ∈ first :: others,
        g.Covers (.callExpression link.callee link.arguments) := by
      rw [← hlinks]
      exact fun link hl => h.subtree (callChain_mem hl)
    rw [List.forall_mem_cons] at hlink
    have hstages := rel_mapM fun link hl =>
      (weighs_stage hv (hlink.2 link hl)).imp fun _ hform => hform.rel
    rw [← g.tally_callChain hlinks]
    refine yields_bind (weighs_call hv hlink.1) fun start hstart => ?_
    refine yields_bind hstages fun stages hstages => yields_pure (weighsOne_call (by decide) ?_)
    exact g.add hstart.rel hstages
  · exact weighs_call hv h

theorem weighs_newExpression (hv : Weighs g visit) {callee : Node} {nodes : List Node}
    (h : g.Covers (.newExpression callee nodes)) :
    Yields (newExpression visit callee nodes)
      (g.WeighsOne (g.tally (.newExpression callee nodes))) := by
  have hnodes : ∀ a ∈ nodes, g.Covers a := fun a ha => h.child (by simp [children, ha])
  rw [g.tally_newExpression]
  refine yields_bind (hv.callee (h.child (by simp [children]))) fun form hform => ?_
  refine yields_bind (weighs_arguments hv hnodes) fun args hargs => ?_
  exact yields_pure (weighsOne_call (by decide) (by simpa using g.add hform.rel hargs.rel))

/-! ### Elements -/

theorem rel_attributeValue (hv : Weighs g visit) {value : Option Node}
    (h : ∀ v ∈ value, g.Covers v) :
    Yields (attributeValue visit value) fun form =>
      g.Rel (g.weight form) (g.tallies value.toList) := by
  cases value with
  | none => exact yields_ok (by simpa using g.zero)
  | some value =>
    refine yields_bind (hv.one (h value rfl) rfl) fun form hform => yields_pure ?_
    have hform := hform.rel
    split
    · -- An empty container stands for `nil`, and neither of them measures anything.
      rename_i hmarker
      rw [g.weight_of_isMarker hmarker] at hform
      simpa using hform
    · simpa using hform

theorem rel_attributeEntry (hv : Weighs g visit) {node : Node} (h : g.Covers node) :
    Yields (attributeEntry visit node) fun form =>
      g.Rel (g.weight form) (g.tally node) := by
  cases node with
  | jsxAttribute name value =>
    have hvalue : ∀ v ∈ value, g.Covers v := fun v hm => h.child (by simp_all [children])
    rw [g.tally_of_own rfl]
    refine yields_bind (rel_attributeValue hv hvalue) fun value hvalue => ?_
    refine yields_bind (hv.one (h.child (by simp [children])) rfl) fun name hname => ?_
    exact yields_pure (by simpa [below, kept, children] using g.add hname.rel hvalue)
  | _ => exact yields_error _

theorem rel_attributeMap (hv : Weighs g visit) {nodes : List Node}
    (h : ∀ a ∈ nodes, g.Covers a) :
    Yields (attributeMap visit nodes) fun form =>
      g.Rel (g.weight form) (g.tallies nodes) := by
  unfold attributeMap
  split
  · rename_i hempty
    rw [List.isEmpty_iff] at hempty
    exact yields_ok (by simpa [hempty] using g.zero)
  · refine yields_bind (rel_trees fun a ha => rel_attributeEntry hv (h a ha)) ?_
    exact fun entries hentries => yields_pure (by simpa using hentries)

theorem weighs_jsxElement (hv : Weighs g visit) {opening : Node} {items : List Node}
    (h : g.Covers (.jsxElement opening items)) :
    Yields (jsxElement visit opening items)
      (g.WeighsOne (g.tally (.jsxElement opening items))) := by
  have hopening : g.Covers opening := h.child (by simp [children])
  have hitems : Yields (items.mapM (visit · .value)) fun lists =>
      g.Rel (g.weights lists.flatten) (g.tallies items) :=
    rel_flatten fun m hm =>
      (hv.forms (h.child (by simp [children, hm])) rfl).imp fun _ hforms => hforms.rel
  rw [g.tally_of_own rfl]
  cases opening with
  | jsxOpeningElement name attributes selfClosing =>
    have htotal : g.tally (.jsxOpeningElement name attributes selfClosing) =
        g.tally name + g.tallies attributes := by
      rw [g.tally_of_own rfl]
      simp [below, kept, children]
    have hattributes : ∀ a ∈ attributes, g.Covers a := fun a ha =>
      hopening.child (by simp [children, ha])
    refine yields_bind (hv.one (hopening.child (by simp [children])) rfl) fun tag htag => ?_
    refine yields_bind (rel_attributeMap hv hattributes) fun form hform => ?_
    refine yields_bind hitems fun lists hlists => yields_pure ⟨?_, isHead_of_symbol?_eq_none rfl⟩
    simpa [below, kept, children, htotal, add_assoc] using
      g.add htag.rel (g.add hform hlists)
  | _ => exact yields_error _

end ScriptForms.Rule
