import ScriptForms.Proofs.Access
import ScriptForms.Proofs.Form.Free
import ScriptForms.Proofs.Receiver

/-!
# What an assignment through the receiver captures

An assignment to a place that starts at `this` stands under a list `(this-as that ...)`, together
with its value and the keys of its place. The name `that` is fixed, so that a `that` of the script
that is free in the value or in a key comes to mean the receiver; and it is looked up like any other
name, so that a scope that knows `that` takes the receiver for a name of the host environment. In a
script without a name `that` of its own, under a scope without it, neither happens.

* `Form.root?`: the symbol that an access or an assignment starts at.
* `Form.Hygienic`: the receiver is read by its name, and what was free stays free.
* `Rule.reads_rebindReceiver`: the parts of an access that starts at `this`.
* `Node.forms_assignment_hygienic_iff`: the assignments that are hygienic.
-/

namespace ScriptForms

open Node

namespace Form

/-! ### Hygiene -/

/-- The symbol that an access or an assignment starts at: the object comes after the head. -/
def root? : Form → Option String
  | .symbol name => some name
  | .list (_ :: object :: _) => object.root?
  | _ => none

/-- A form under a list that binds the receiver, which holds some forms of the script: the receiver
is read by the name that is bound, and what is free in the forms of the script is free in the
whole. -/
structure Hygienic (users : List Form) (form : Form) : Prop where
  root : ∃ bound body, form = .thisAs bound body ∧ body.root? = some bound
  free : ∀ user ∈ users, ∀ name, user.refersTo name → form.refersTo name

/-- An access or an assignment that starts at a symbol and holds some forms of the script. -/
structure ReadsFrom (root : String) (users : List Form) (form : Form) : Prop where
  root : form.root? = some root
  free : ∀ user ∈ users, ∀ name, user.refersTo name → form.refersTo name

/-- A list that binds nothing reads from what its first argument reads from. -/
theorem ReadsFrom.call {root : String} {users : List Form} {object : Form}
    (h : ReadsFrom root users object) {head : String} (hhead : head ∉ bindingHeads)
    (args : List Form) : ReadsFrom root (users ++ args) (.call head (object :: args)) where
  root := h.root
  free := by
    intro user hm name hname
    rw [refersTo_call hhead]
    simp only [List.any_cons, Bool.or_eq_true, List.any_eq_true]
    rcases List.mem_append.1 hm with hm | hm
    · exact .inr (.inl (h.free user hm name hname))
    · exact .inr (.inr ⟨user, hm, hname⟩)

theorem ReadsFrom.mono {root : String} {users others : List Form} {form : Form}
    (h : ReadsFrom root users form) (hsub : others ⊆ users) : ReadsFrom root others form where
  root := h.root
  free := fun user hm => h.free user (hsub hm)

/-- What is stored may stand for a value that it refers to all of. -/
theorem ReadsFrom.stored {root : String} {users : List Form} {stored value form : Form}
    (h : ReadsFrom root (users ++ [stored]) form)
    (hv : ∀ name, value.refersTo name → stored.refersTo name) :
    ReadsFrom root (value :: users) form where
  root := h.root
  free := by
    intro user hm name hname
    rcases List.mem_cons.1 hm with rfl | hm
    · exact h.free stored (by simp) name (hv name hname)
    · exact h.free user (by simp [hm]) name hname

/-- Under the list that binds the receiver, reads from the name that is bound are hygienic as long
as the name is not free in the forms of the script. -/
theorem ReadsFrom.hygienic_iff {root bound : String} {users : List Form} {body : Form}
    (h : ReadsFrom root users body) :
    Hygienic users (.thisAs bound body) ↔
      root = bound ∧ ∀ user ∈ users, ¬user.refersTo bound := by
  refine ⟨fun hyg => ⟨?_, fun user hm hname => ?_⟩, fun h' => ⟨?_, ?_⟩⟩
  · obtain ⟨bound', body', hform, hroot⟩ := hyg.root
    simp only [thisAs, Form.call, Form.list.injEq, List.cons.injEq, Form.symbol.injEq, true_and,
      and_true] at hform
    rw [← hform.1, ← hform.2, h.root] at hroot
    exact Option.some.inj hroot
  · have := hyg.free user hm bound hname
    simp at this
  · exact ⟨bound, body, rfl, by rw [h.root, h'.1]⟩
  · intro user hm name hname
    have hne : bound ≠ name := fun heq => h'.2 user hm (heq ▸ hname)
    simp [hne, h.free user hm name hname]

/-! ### Exposed names -/

theorem refersTo_of_bindsReceiver {name : String} {children : List Form}
    (h : bindsReceiver name children) : refersTo name (.list children) = false := by
  unfold bindsReceiver at h
  split at h
  · rename_i head bound rest
    rw [Bool.and_eq_true, decide_eq_true_iff, decide_eq_true_iff] at h
    obtain ⟨rfl, rfl⟩ := h
    simp [captureHead, refersTo]
  · cases h

/-- A name that is nowhere exposed is not free. -/
theorem not_refersTo_of_exposures {name : String} {form : Form} (h : form.exposures name = 0) :
    ¬form.refersTo name := by
  induction form using induction_on_parts with
  | h form ih =>
    have hparts : (form.parts.map (exposures name)).sum = 0 →
        ¬∃ part ∈ form.parts, part.refersTo name := by
      rintro hzero ⟨part, hm, hpart⟩
      rw [List.sum_eq_zero_iff_forall_eq_nat] at hzero
      exact ih part hm (hzero _ (List.mem_map_of_mem hm)) hpart
    intro hform
    cases form with
    | symbol text => simp_all [exposures, refersTo]
    | list children =>
      rw [exposures] at h
      split at h
      · rename_i hbinds
        rw [refersTo_of_bindsReceiver hbinds] at hform
        cases hform
      · rw [exposuresAll_eq] at h
        exact hparts h (exists_refersTo_of_list hform)
    | vector children | hashMap children | program children =>
      rw [exposures, exposuresAll_eq] at h
      exact hparts h (by simpa [refersTo, parts] using hform)
    | mapEntry key value =>
      exact hparts (by simpa [exposures, parts] using h) (by simpa [refersTo, parts] using hform)
    | tagged tag form =>
      exact hparts (by simpa [exposures, parts] using h) (by simpa [refersTo, parts] using hform)
    | _ => simp [refersTo] at hform

end Form

namespace Node

/-! ### The parts of a place -/

/-- The keys of a chain of accesses, from its root on. -/
def accessKeys : Node → List Node
  | .memberExpression object key true => object.accessKeys ++ [key]
  | .memberExpression object _ false => object.accessKeys
  | _ => []

/-- The properties of a grammatical chain of accesses are names. -/
theorem Grammatical.isNamedAccess {node : Node} (h : node.Grammatical) : node.isNamedAccess := by
  induction node using accessRoot.induct with
  | case1 object property computed ih =>
    have hfits := (grammatical_iff.1 h).1
    simp only [Node.isNamedAccess, ih (h.child (by simp [children])), Bool.true_and]
    cases computed with
    | false =>
      simp only [fits, Bool.and_eq_true] at hfits
      simpa using hfits.2
    | true => rfl
  | case2 node hne =>
    cases node with
    | memberExpression object property computed => exact absurd rfl (hne object property computed)
    | _ => rfl

theorem dotChain_rebindReceiver (receiver : String) (node : Node) :
    (node.rebindReceiver receiver).dotChain =
      (node.dotChain.1.rebindReceiver receiver, node.dotChain.2) := by
  induction node using dotChain.induct with
  | case1 object property target properties hd ih =>
    rw [rebindReceiver, dotChain, dotChain, ih]
  | case2 node hne =>
    have hchain : node.dotChain = (node, []) := by
      rw [dotChain]
      exact hne
    rw [hchain]
    cases node with
    | memberExpression object property computed =>
      cases computed with
      | false => exact absurd rfl (hne object property)
      | true => rfl
    | _ => rfl

end Node

namespace Rule

open Form

/-- The symbol that stands for the receiver. -/
def receiverSymbol (scope : Scope) (receiver : String) : String :=
  if scope receiver then hostName receiver else receiver

/-- The conversion of the keys of a chain. -/
abbrev keyForms (scope : Scope) (node : Node) : Except Fault (List Form) :=
  node.accessKeys.mapM fun key => (Visit.forms scope).one key

theorem keyForms_element {scope : Scope} {object property : Node} {forms : List Form} {key : Form}
    (hforms : keyForms scope object = .ok forms)
    (hkey : (Visit.forms scope).one property = .ok key) :
    keyForms scope (.memberExpression object property true) = .ok (forms ++ [key]) := by
  rw [keyForms] at hforms
  rw [keyForms, accessKeys, List.mapM_append, hforms, List.mapM_cons, List.mapM_nil, hkey]
  rfl

theorem not_mem_bindingHeads_dotGetterName (name : String) :
    dotGetterName name ∉ bindingHeads := by
  have hhead : (dotGetterName name).toList.head? = some '.' := by simp [dotGetterName]
  intro hm
  have htable : ∀ head ∈ bindingHeads, head.toList.head? ≠ some '.' := by decide
  exact htable _ hm hhead

/-- A chain of accesses that starts at a symbol and holds the forms of its keys. -/
def ReadsKeys (root : String) (keys : Except Fault (List Form)) (form : Form) : Prop :=
  ∃ forms, keys = .ok forms ∧ ReadsFrom root forms form

variable {scope : Scope} {root : String} {keys : Except Fault (List Form)}

theorem ReadsKeys.call {object : Form} (h : ReadsKeys root keys object) {head : String}
    (hhead : head ∉ bindingHeads) (args : List Form) :
    ReadsKeys root keys (.call head (object :: args)) := by
  obtain ⟨forms, hkeys, hforms⟩ := h
  exact ⟨forms, hkeys, (hforms.call hhead args).mono (List.subset_append_left _ _)⟩

theorem reads_getter {target : Node} (name : String)
    (h : Yields ((Visit.forms scope).one target .callee) (ReadsKeys root keys)) :
    Yields (getter (Visit.forms scope) target (.identifier name)) (ReadsKeys root keys) := by
  rw [getter_eq]
  refine yields_bind h fun object hobject => yields_pure ?_
  exact hobject.call (not_mem_bindingHeads_dotGetterName name) []

/-- Reading properties from a form reads from what the form reads from. -/
theorem reads_dotted {target : Node} {names : List String} (hn : names ≠ [])
    (h : Yields ((Visit.forms scope).one target .callee) (ReadsKeys root keys)) :
    Yields (dotted (Visit.forms scope) target (names.map .identifier)) (ReadsKeys root keys) := by
  match names, hn with
  | [name], _ => exact reads_getter name h
  | first :: second :: rest, _ =>
    have hsteps := mapM_steps scope (first :: second :: rest)
    simp only [List.map_cons, dotted] at hsteps ⊢
    rw [hsteps]
    exact yields_bind h fun object hobject => yields_pure (hobject.call (by decide) _)

/-- A chain of dotted accesses reads from what its target reads from. -/
theorem reads_dotChain {node : Node} (hroot : node.accessRoot.isThis = false)
    (hnamed : node.isNamedAccess)
    (h : Yields ((Visit.forms scope).one node.dotChain.1 .callee) (ReadsKeys root keys)) :
    Yields ((Visit.forms scope).one node .callee) (ReadsKeys root keys) := by
  obtain ⟨names, hnames, -⟩ := dotChain_named hnamed
  cases node using dotChain.fun_cases with
  | case1 object property target properties hd =>
    have hn : names ≠ [] := by
      rintro rfl
      simp [dotChain] at hnames
    rw [accessRoot] at hroot
    rw [one_plainMember scope hroot, plainMember, hnames]
    exact reads_dotted hn h
  | case2 node hne =>
    rw [dotChain] at h
    exacts [h, hne]

/-- The form of a chain that starts at `this` reads from the symbol of the receiver, and holds the
forms of its keys. -/
theorem reads_rebindReceiver (scope : Scope) (receiver : String) {node : Node}
    (hroot : node.accessRoot.isThis) (hnamed : node.isNamedAccess) :
    Yields ((Visit.forms scope).one (node.rebindReceiver receiver) .callee)
      (ReadsKeys (receiverSymbol scope receiver) (keyForms scope node)) := by
  have hwhole : ∀ m : Node, m.isNamedAccess →
      Yields ((Visit.forms scope).one (m.dotChain.1.rebindReceiver receiver) .callee)
        (ReadsKeys (receiverSymbol scope receiver) (keyForms scope m)) →
      Yields ((Visit.forms scope).one (m.rebindReceiver receiver) .callee)
        (ReadsKeys (receiverSymbol scope receiver) (keyForms scope m)) := by
    intro m hm h
    refine reads_dotChain (isThis_accessRoot_rebindReceiver receiver m)
      (by rwa [isNamedAccess_rebindReceiver]) ?_
    rwa [dotChain_rebindReceiver]
  -- By induction along the accesses, for the target of the dotted accesses at the end.
  refine hwhole node hnamed ?_
  induction node using accessRoot.induct with
  | case1 object property computed ih =>
    simp only [isNamedAccess, Bool.and_eq_true] at hnamed
    have ih := ih hroot hnamed.1
    cases computed with
    | false =>
      rw [dotChain, keyForms, accessKeys]
      exact ih
    | true =>
      have hplain := isThis_accessRoot_rebindReceiver receiver object
      rw [dotChain.eq_2 _ (by simp), rebindReceiver, one_plainMember scope hplain, plainMember]
      refine yields_bind (hwhole object hnamed.1 ih) fun form hform => ?_
      obtain ⟨forms, hforms, hread⟩ := hform
      cases hkey : (Visit.forms scope).one property with
      | error fault => exact yields_error fault
      | ok key =>
        exact yields_pure
          ⟨forms ++ [key], keyForms_element hforms hkey, hread.call (by decide) [key]⟩
  | case2 node hne =>
    cases node with
    | thisExpression =>
      refine yields_ok ⟨[], rfl, ?_, by simp⟩
      rw [sequence_singleton, identifier_callee]
      rfl
    | memberExpression object property computed => exact absurd rfl (hne object property computed)
    | _ => cases hroot

/-! ### Assignments -/

/-- The operator of a compound assignment of the language is the head of no list that binds. -/
theorem not_mem_bindingHeads_arithmeticOperator {operator : String}
    (h : Source.assignmentOperators.contains operator) :
    arithmeticOperator operator ∉ bindingHeads := by
  have htable : ∀ operator ∈ Source.assignmentOperators,
      arithmeticOperator operator ∉ bindingHeads := by decide
  exact htable operator (by simpa using h)

/-- The value that an assignment stores refers to what the value of the script refers to. -/
theorem refersTo_compound {operator : String} (h : Source.assignmentOperators.contains operator)
    (current value : Form) :
    Yields (compound operator current value) fun stored =>
      ∀ name, value.refersTo name → stored.refersTo name := by
  unfold compound
  split
  · exact yields_ok fun name hname => hname
  iterate 3 exact yields_error _
  · refine yields_ok fun name hname => ?_
    rw [refersTo_call (not_mem_bindingHeads_arithmeticOperator h)]
    simp [hname]

/-- An assignment through the receiver holds the forms of its value and of the keys of its place,
and starts at the symbol of the receiver. -/
theorem reads_assignTo {operator : String} (ho : Source.assignmentOperators.contains operator)
    (receiver : String) {left : Node} (hroot : left.isReceiverRooted)
    (hnamed : left.isNamedAccess) (value : Form) :
    Yields (assignTo (Visit.forms scope) operator (left.rebindReceiver receiver) value) fun body =>
      ∃ keys, keyForms scope left = .ok keys ∧
        ReadsFrom (receiverSymbol scope receiver) (value :: keys) body := by
  cases left with
  | memberExpression object property computed =>
    simp only [isNamedAccess, Bool.and_eq_true] at hnamed
    have hobject := @reads_rebindReceiver scope receiver object
      (by simpa [isReceiverRooted, isAccess, accessRoot] using hroot) hnamed.1
    rw [rebindReceiver]
    cases computed with
    | false =>
      obtain ⟨name, rfl⟩ := eq_identifier_of_isIdentifier (by simpa using hnamed.2)
      rw [assignTo]
      refine yields_bind (reads_getter name hobject) fun place hplace => ?_
      obtain ⟨forms, hforms, hread⟩ := hplace
      refine yields_bind (refersTo_compound ho place value) fun stored hstored => yields_pure ?_
      exact ⟨forms, hforms, (hread.call (by decide) [stored]).stored hstored⟩
    | true =>
      rw [assignTo]
      refine yields_bind hobject fun object hobject => ?_
      obtain ⟨forms, hforms, hread⟩ := hobject
      cases hkey : (Visit.forms scope).one property with
      | error fault => exact yields_error fault
      | ok key =>
        rw [ok_bind]
        refine yields_bind (refersTo_compound ho _ value) fun stored hstored => yields_pure ?_
        refine ⟨forms ++ [key], keyForms_element hforms hkey, ReadsFrom.stored ?_ hstored⟩
        rw [List.append_assoc]
        exact hread.call (by decide) [key, stored]
  | _ => cases hroot

theorem reads_plainAssignment {operator : String}
    (ho : Source.assignmentOperators.contains operator) (receiver : String) {left : Node}
    (hroot : left.isReceiverRooted) (hnamed : left.isNamedAccess) (right : Node) :
    Yields (plainAssignment (Visit.forms scope) operator left (left.rebindReceiver receiver) right)
      fun body => ∃ value keys, (Visit.forms scope).one right = .ok value ∧
        keyForms scope left = .ok keys ∧
        ReadsFrom (receiverSymbol scope receiver) (value :: keys) body := by
  unfold plainAssignment
  refine yields_check ?_
  cases hvalue : (Visit.forms scope).one right with
  | error fault => exact yields_error fault
  | ok value =>
    refine (reads_assignTo ho receiver hroot hnamed value).imp fun body hbody => ?_
    obtain ⟨keys, hkeys, hread⟩ := hbody
    exact ⟨value, keys, rfl, hkeys, hread⟩

end Rule

namespace Node

open Rule Form

theorem accessKeys_mem {node key : Node} (h : key ∈ node.accessKeys) : key ∈ node.subtrees := by
  induction node using accessKeys.induct with
  | case1 object property ih =>
    rw [accessKeys, List.mem_append, List.mem_singleton] at h
    have hchild : ∀ m ∈ (Node.memberExpression object property true).children,
        key ∈ m.subtrees → key ∈ (Node.memberExpression object property true).subtrees :=
      fun m hm hk => mem_subtrees_of_mem_descendants (mem_descendants_of_child hm hk)
    rcases h with h | rfl
    · exact hchild object (by simp [children]) (ih h)
    · exact hchild key (by simp [children]) (mem_subtrees_self key)
  | case2 object property ih =>
    rw [accessKeys] at h
    exact mem_subtrees_of_mem_descendants
      (mem_descendants_of_child (by simp [children]) (ih h))
  | case3 node h₁ h₂ =>
    rw [accessKeys] at h
    · cases h
    · exact h₁
    · exact h₂

/-- A name of the receiver that does not occur in a tree is not free in its form. -/
theorem yields_not_refersTo {receiver : String}
    (hr : receiver ∈ [Rule.receiver, placeReceiver]) {node : Node} (hg : node.Grammatical)
    (hw : ∀ m ∈ node.subtrees, m.isWorded)
    (hn : ∀ m ∈ node.subtrees, receiver ∉ m.ownName?) (scope : Scope) :
    Yields ((Visit.forms scope).one node) fun form => ¬form.refersTo receiver := by
  have hcovers : (Gauge.exposure scope receiver hr).Covers node := ⟨hg, hw⟩
  have hone := (convert_weighs (Gauge.exposure scope receiver hr) node.size).one hcovers
    (show Context.asks .value = false from rfl)
  exact hone.imp fun form hform => not_refersTo_of_exposures (hform.rel (tally_exposure hr hn))

/-- An assignment through the receiver is hygienic iff the scope does not know the name of the
receiver and the name is free neither in the value nor in the keys of the place, as they are on
their own. This is so if the name does not occur in the assignment. -/
theorem forms_assignment_hygienic_iff {operator : String} {left right : Node}
    (hg : (Node.assignmentExpression operator left right).Grammatical)
    (hw : ∀ m ∈ (Node.assignmentExpression operator left right).subtrees, m.isWorded)
    (hr : left.isReceiverRooted) (scope : Scope) (context : Context) {forms : List Form}
    (h : (Node.assignmentExpression operator left right).forms scope context = .ok forms) :
    ∃ form value keys, forms = [form] ∧ (Visit.forms scope).one right = .ok value ∧
      keyForms scope left = .ok keys ∧
      (Hygienic (value :: keys) form ↔
        scope placeReceiver = false ∧ ∀ user ∈ value :: keys, ¬user.refersTo placeReceiver) ∧
      ((∀ m ∈ (Node.assignmentExpression operator left right).subtrees,
          placeReceiver ∉ m.ownName?) →
        ∀ user ∈ value :: keys, ¬user.refersTo placeReceiver) := by
  have hleft : left.Grammatical := hg.child (by simp [children])
  have ho : Source.assignmentOperators.contains operator := hw _ (mem_subtrees_self _)
  rw [forms_eq, step, bind_eq_ok] at h
  obtain ⟨form, hform, hforms⟩ := h
  rw [assignment, if_pos hr, bind_eq_ok] at hform
  obtain ⟨body, hbody, hthisAs⟩ := hform
  obtain rfl := Except.ok.inj hforms
  obtain rfl := Except.ok.inj hthisAs
  obtain ⟨value, keys, hvalue, hkeys, hread⟩ :=
    reads_plainAssignment ho placeReceiver hr hleft.isNamedAccess right body hbody
  refine ⟨_, value, keys, rfl, hvalue, hkeys, ?_, fun hn => ?_⟩
  · rw [hread.hygienic_iff]
    refine and_congr_left fun _ => ?_
    cases hscope : scope placeReceiver with
    | false => simp [receiverSymbol, hscope]
    | true =>
      rw [receiverSymbol, hscope]
      decide
  · have hpart : ∀ m : Node, m ∈ (Node.assignmentExpression operator left right).subtrees →
        Yields ((Visit.forms scope).one m) fun form => ¬form.refersTo placeReceiver := fun m hm =>
      yields_not_refersTo (by simp) (hg.subtree hm) (fun k hk => hw k (mem_subtrees_trans hk hm))
        (fun k hk => hn k (mem_subtrees_trans hk hm)) scope
    have hchild : ∀ m ∈ (Node.assignmentExpression operator left right).children,
        ∀ k ∈ m.subtrees, k ∈ (Node.assignmentExpression operator left right).subtrees :=
      fun m hm k hk => mem_subtrees_of_mem_descendants (mem_descendants_of_child hm hk)
    refine List.forall_mem_cons.2 ⟨?_, ?_⟩
    · exact hpart right (hchild right (by simp [children]) _ (mem_subtrees_self _)) value hvalue
    · refine yields_mapM (fun key hm => ?_) keys hkeys
      exact hpart key (hchild left (by simp [children]) _ (accessKeys_mem hm))

/-- The place `this.a[k]`. -/
def keyedPlace : Node :=
  .memberExpression (.memberExpression .thisExpression (.identifier "a") false) (.identifier "k")
    true

/-- The form of `this.a[k] += b`. -/
def keyedForm : Form :=
  .thisAs "that" (.call "aset" [.list [.symbol ".-a", .symbol "that"], .symbol "k",
    .call "+" [.call "aget" [.list [.symbol ".-a", .symbol "that"], .symbol "k"], .symbol "b"]])

/-- The assignment `this.a[k] += b` is hygienic, since it has no name for the receiver. -/
theorem forms_keyedPlace :
    (Node.assignmentExpression "+=" keyedPlace (.identifier "b")).forms (fun _ => false) =
        .ok [keyedForm] ∧
      Hygienic [.symbol "b", .symbol "k"] keyedForm := by
  have hform : (Node.assignmentExpression "+=" keyedPlace (.identifier "b")).forms
      (fun _ => false) .value = .ok [keyedForm] := rfl
  obtain ⟨form, value, keys, hsingle, hvalue, hkeys, hiff, hfree⟩ :=
    forms_assignment_hygienic_iff (by unfold Grammatical; decide) (by decide) rfl _ .value hform
  obtain rfl : keyedForm = form := List.singleton_inj.1 hsingle
  obtain rfl : Form.symbol "b" = value := Except.ok.inj hvalue
  obtain rfl : [Form.symbol "k"] = keys := Except.ok.inj hkeys
  exact ⟨hform, hiff.2 ⟨rfl, hfree (by decide)⟩⟩

/-! ### Captured names -/

/-- The place `this.x`. -/
def receiverPlace : Node := .memberExpression .thisExpression (.identifier "x") false

/-- The form of `this.x = that`. -/
def captureForm : Form :=
  .thisAs "that" (.call "set!" [.list [.symbol ".-x", .symbol "that"], .symbol "that"])

/-- The form of `this.x = 1` under a scope that knows `that`. -/
def hostReceiverForm : Form :=
  .thisAs "that" (.call "set!" [.list [.symbol ".-x", .symbol "js/that"], .number "1"])

/-- In `this.x = that`, the `that` of the script is taken for the receiver. Under a scope that knows
`that`, the receiver of `this.x = 1` is taken for a name of the host environment. -/
theorem forms_receiverPlace_captured :
    ((Node.assignmentExpression "=" receiverPlace (.identifier "that")).forms (fun _ => false) =
        .ok [captureForm] ∧
      (Visit.forms fun _ => false).one (.identifier "that") = .ok (.symbol "that") ∧
      ¬Hygienic [.symbol "that"] captureForm) ∧
    (Node.assignmentExpression "=" receiverPlace (.numericLiteral "1")).forms (· == "that") =
        .ok [hostReceiverForm] ∧
      ¬Hygienic [.number "1"] hostReceiverForm := by
  refine ⟨⟨rfl, rfl, fun h => ?_⟩, rfl, fun h => ?_⟩
  · have hfree := h.free (.symbol "that") (by simp) "that" (by decide)
    exact absurd hfree (by decide)
  · obtain ⟨bound, body, hform, hroot⟩ := h.root
    simp only [hostReceiverForm, thisAs, Form.call, Form.list.injEq, List.cons.injEq,
      Form.symbol.injEq, true_and, and_true] at hform
    obtain ⟨rfl, rfl⟩ := hform
    exact absurd hroot (by decide)

end Node

end ScriptForms
