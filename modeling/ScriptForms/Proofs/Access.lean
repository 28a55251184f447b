import ScriptForms.Proofs.Switch.Group

/-!
# Reading and writing name the same place

A read of `t.p.q` flattens the chain into one `..` form. A write `t.p.q = v` takes the last property
off and reads the rest, so that the place is a getter around a shorter chain. With every `..` form
expanded the two are the same: one getter for each property, in order, around the form of `t`. A
chain that starts at `this` differs in the symbol at its root only.

* `Form.expandAccess`: a form with every `..` list of getters nested.
* `Form.follow`: a form with properties and elements read from it in order.
* `Rule.expandAccess_plainMember`: one more property is one more getter.
* `Rule.follow_receiver`: a chain that starts at `this`, for any name of the receiver.
* `Node.forms_place`: the form of a read and the place of a write.
-/

namespace ScriptForms

open Node

namespace Form

/-! ### Links -/

/-- One link of a chain of accesses. -/
inductive Link where
  /-- The property of a name. -/
  | property (name : String)
  /-- The element at a key. -/
  | element (key : Form)

/-- The form that reads one link from an object. -/
def readLink (object : Form) : Link → Form
  | .property name => .list [.symbol (dotGetterName name), object]
  | .element key => .call "aget" [object, key]

/-- The form that reads links from an object, one after the other. -/
def follow (object : Form) (links : List Link) : Form := links.foldl readLink object

@[simp] theorem follow_nil (object : Form) : object.follow [] = object := rfl

theorem follow_append (object : Form) (first second : List Link) :
    object.follow (first ++ second) = (object.follow first).follow second :=
  List.foldl_append

theorem follow_concat (object : Form) (links : List Link) (link : Link) :
    object.follow (links ++ [link]) = (object.follow links).readLink link := by
  rw [follow_append]
  rfl

/-! ### Expansion -/

/-- The property that a step of a `..` list reads. -/
def stepProperty? : Form → Option String
  | .symbol text =>
    match text.toList with
    | '-' :: name => some (String.ofList name)
    | _ => none
  | _ => none

@[simp] theorem stepProperty?_getterName (name : String) :
    stepProperty? (.symbol (getterName name)) = some name := by
  simp [stepProperty?, getterName]

theorem mapM_stepProperty? (names : List String) :
    (names.map fun name => Form.symbol (getterName name)).mapM stepProperty? = some names := by
  induction names with
  | nil => rfl
  | cons name names ih => simp [ih]

/-- The list of some forms, with the steps nested if it is a `..` list of getters. -/
def nestSteps : List Form → Form
  | .symbol ".." :: object :: steps =>
    match steps.mapM stepProperty? with
    | some names => object.follow (names.map .property)
    | none => .list (.symbol ".." :: object :: steps)
  | forms => .list forms

mutual

/-- A form with every list `(.. x -p ... -q)` in it turned into `(.-q ... (.-p x))`. -/
def expandAccess : Form → Form
  | .list children => nestSteps (expandAccessAll children)
  | .vector children => .vector (expandAccessAll children)
  | .hashMap children => .hashMap (expandAccessAll children)
  | .program children => .program (expandAccessAll children)
  | .mapEntry key value => .mapEntry (expandAccess key) (expandAccess value)
  | .tagged tag form => .tagged tag (expandAccess form)
  | form => form

/-- Several forms with every `..` list of getters nested. -/
def expandAccessAll : List Form → List Form
  | [] => []
  | form :: forms => expandAccess form :: expandAccessAll forms

end

@[simp] theorem expandAccess_symbol (name : String) :
    expandAccess (.symbol name) = .symbol name := by
  simp [expandAccess]

theorem expandAccessAll_symbols (names : List String) :
    expandAccessAll (names.map Form.symbol) = names.map Form.symbol := by
  induction names with
  | nil => rfl
  | cons name names ih => rw [List.map_cons, expandAccessAll, expandAccess_symbol, ih]

theorem expandAccess_getter (name : String) (object : Form) :
    expandAccess (.list [.symbol (dotGetterName name), object]) =
      object.expandAccess.readLink (.property name) := by
  have hne : dotGetterName name ≠ ".." := by
    intro h
    have := congrArg (·.toList) h
    simp [dotGetterName] at this
  simp [expandAccess, expandAccessAll, nestSteps, hne, readLink]

theorem expandAccess_element (object key : Form) :
    expandAccess (.call "aget" [object, key]) =
      object.expandAccess.readLink (.element key.expandAccess) := by
  simp [call, expandAccess, expandAccessAll, nestSteps, readLink]

theorem expandAccess_steps (object : Form) (names : List String) :
    expandAccess (.call ".." (object :: names.map fun name => .symbol (getterName name))) =
      object.expandAccess.follow (names.map .property) := by
  have hsteps : expandAccessAll (names.map fun name => .symbol (getterName name)) =
      names.map fun name => .symbol (getterName name) := by
    have := expandAccessAll_symbols (names.map getterName)
    rwa [List.map_map] at this
  rw [call, expandAccess, expandAccessAll, expandAccessAll, expandAccess_symbol, hsteps, nestSteps,
    mapM_stepProperty?]

example : (call ".." [call "aget" [call ".." [.symbol "a", .symbol "-b", .symbol "-c"], .number "0"],
      .symbol "-d"]).expandAccess =
    .list [.symbol ".-d", call "aget" [.list [.symbol ".-c", .list [.symbol ".-b", .symbol "a"]],
      .number "0"]] := rfl

end Form

namespace Node

/-! ### Chains -/

/-- The chain `node.p.q` of the properties `p`, `q` of a node. -/
def dots (node : Node) (names : List String) : Node :=
  names.foldl (fun object name => .memberExpression object (.identifier name) false) node

@[simp] theorem dots_nil (node : Node) : node.dots [] = node := rfl

theorem dots_cons (node : Node) (name : String) (names : List String) :
    node.dots (name :: names) =
      (Node.memberExpression node (.identifier name) false).dots names := rfl

theorem dots_concat (node : Node) (names : List String) (name : String) :
    node.dots (names ++ [name]) =
      .memberExpression (node.dots names) (.identifier name) false := by
  rw [dots, List.foldl_append]
  rfl

/-- Whether the properties on the way from the root of a chain of accesses are names. -/
def isNamedAccess : Node → Bool
  | .memberExpression object property computed =>
    object.isNamedAccess && (computed || property.isIdentifier)
  | _ => true

theorem accessRoot_dots (node : Node) (names : List String) :
    (node.dots names).accessRoot = node.accessRoot := by
  induction names generalizing node with
  | nil => rfl
  | cons name names ih => rw [dots_cons, ih, accessRoot]

theorem rebindReceiver_dots (receiver : String) (node : Node) (names : List String) :
    (node.dots names).rebindReceiver receiver = (node.rebindReceiver receiver).dots names := by
  induction names generalizing node with
  | nil => rfl
  | cons name names ih => rw [dots_cons, dots_cons, ih, rebindReceiver]

theorem isNamedAccess_rebindReceiver (receiver : String) (node : Node) :
    (node.rebindReceiver receiver).isNamedAccess = node.isNamedAccess := by
  induction node using rebindReceiver.induct with
  | case1 => rfl
  | case2 object property computed ih => simp [rebindReceiver, isNamedAccess, ih]
  | case3 node h₁ h₂ => rw [rebindReceiver]; exacts [h₁, h₂]

/-- The root of a chain is a name once the receiver is renamed. -/
theorem isThis_accessRoot_rebindReceiver (receiver : String) (node : Node) :
    (node.rebindReceiver receiver).accessRoot.isThis = false := by
  induction node using rebindReceiver.induct with
  | case1 => rfl
  | case2 object property computed ih => rw [rebindReceiver, accessRoot, ih]
  | case3 node h₁ h₂ =>
    rw [rebindReceiver]
    · cases node with
      | thisExpression => exact absurd rfl h₁
      | memberExpression object property computed => exact absurd rfl (h₂ _ _ _)
      | _ => rfl
    · exact h₁
    · exact h₂

/-- A chain that does not start at `this` has no receiver to rename. -/
theorem rebindReceiver_of_not_this {node : Node} (h : node.accessRoot.isThis = false)
    (receiver : String) : node.rebindReceiver receiver = node := by
  induction node using rebindReceiver.induct with
  | case1 => cases h
  | case2 object property computed ih => rw [rebindReceiver, ih h]
  | case3 node h₁ h₂ => rw [rebindReceiver]; exacts [h₁, h₂]

theorem dotChain_dots (node : Node) (names : List String) :
    (node.dots names).dotChain = (node.dotChain.1, node.dotChain.2 ++ names.map .identifier) := by
  induction names generalizing node with
  | nil => simp
  | cons name names ih => simp [dots_cons, ih, dotChain]

/-- A chain of dotted accesses is that of its properties from its target. -/
theorem dotChain_named {node : Node} (h : node.isNamedAccess) :
    ∃ names : List String, node.dotChain.2 = names.map .identifier ∧
      node = node.dotChain.1.dots names := by
  induction node using dotChain.induct with
  | case1 object property target properties hd ih =>
    simp only [isNamedAccess, Bool.false_or, Bool.and_eq_true] at h
    obtain ⟨names, hnames, hobject⟩ := ih h.1
    obtain ⟨name, rfl⟩ := eq_identifier_of_isIdentifier h.2
    refine ⟨names ++ [name], ?_, ?_⟩
    · simp [dotChain, hnames]
    · rw [dots_concat, dotChain, ← hobject]
  | case2 node hne =>
    rw [dotChain]
    · exact ⟨[], rfl, rfl⟩
    · exact hne

theorem isReceiverRooted_dots (node : Node) {names : List String} (hn : names ≠ []) :
    (node.dots names).isReceiverRooted = node.accessRoot.isThis := by
  obtain ⟨names, name, rfl⟩ := (List.eq_nil_or_concat names).resolve_left hn
  simp only [List.concat_eq_append, dots_concat, isReceiverRooted, isAccess, accessRoot,
    accessRoot_dots, Bool.true_and]

end Node

namespace Rule

/-! ### Reads -/

theorem getter_eq (scope : Scope) (object : Node) (name : String) :
    getter (Visit.forms scope) object (.identifier name) = (do
      let object ← (Visit.forms scope).one object .callee
      return .list [.symbol (Form.dotGetterName name), object]) := rfl

/-- The steps of a `..` list are the getters of its properties. -/
theorem mapM_steps (scope : Scope) (names : List String) :
    (names.map Node.identifier).mapM
        (fun property => (Visit.forms scope).one property (.named .getter)) =
      .ok (names.map fun name => .symbol (Form.getterName name)) := by
  induction names with
  | nil => rfl
  | cons name names ih =>
    rw [List.map_cons, List.mapM_cons, ih]
    rfl

/-- A chain of dotted accesses, expanded, reads one property after the other. -/
theorem agree_follow_dotted (scope : Scope) (target : Node) {names : List String}
    (hn : names ≠ []) :
    Agree (fun form object =>
        form.expandAccess = object.expandAccess.follow (names.map .property))
      (dotted (Visit.forms scope) target (names.map .identifier))
      ((Visit.forms scope).one target .callee) := by
  match names, hn with
  | [name], _ =>
    simp only [List.map_singleton, dotted, getter_eq]
    cases (Visit.forms scope).one target .callee with
    | error fault => exact .error fault
    | ok object => exact .ok (Form.expandAccess_getter name object)
  | first :: second :: rest, _ =>
    have hsteps := mapM_steps scope (first :: second :: rest)
    simp only [List.map_cons, dotted] at hsteps ⊢
    rw [hsteps]
    cases (Visit.forms scope).one target .callee with
    | error fault => exact .error fault
    | ok object => exact .ok (Form.expandAccess_steps object (first :: second :: rest))

/-- The form of an access is that of its rule. -/
theorem one_memberExpression (scope : Scope) (object property : Node) (computed : Bool)
    (context : Context) :
    (Visit.forms scope).one (.memberExpression object property computed) context =
      member (Visit.forms scope) (.memberExpression object property computed) := by
  rw [Visit.one, show Visit.forms scope (.memberExpression object property computed) context = _ from
    forms_eq scope _ context, step]
  cases member (Visit.forms scope) (.memberExpression object property computed) with
  | error fault => rfl
  | ok form => rfl

theorem one_plainMember (scope : Scope) {object property : Node} {computed : Bool}
    (hroot : object.accessRoot.isThis = false) (context : Context) :
    (Visit.forms scope).one (.memberExpression object property computed) context =
      plainMember (Visit.forms scope) (.memberExpression object property computed) := by
  rw [one_memberExpression, member, isReceiverRooted, accessRoot, hroot, Bool.and_false,
    if_neg Bool.false_ne_true]

/-- A chain that does not start at `this`, expanded, reads its properties from the form of its
target. -/
theorem agree_dotChain (scope : Scope) {node : Node} (hroot : node.accessRoot.isThis = false)
    {names : List String} (hnames : node.dotChain.2 = names.map .identifier) :
    Agree (fun form object =>
        form.expandAccess = object.expandAccess.follow (names.map .property))
      ((Visit.forms scope).one node .callee)
      ((Visit.forms scope).one node.dotChain.1 .callee) := by
  cases node using dotChain.fun_cases with
  | case1 object property target properties hd =>
    have hn : names ≠ [] := by
      rintro rfl
      simp [dotChain] at hnames
    rw [accessRoot] at hroot
    rw [one_plainMember scope hroot, plainMember, hnames]
    exact agree_follow_dotted scope _ hn
  | case2 node hne =>
    have hchain : node.dotChain = (node, []) := by
      rw [dotChain]
      exact hne
    rw [hchain] at hnames ⊢
    obtain rfl : names = [] := List.map_eq_nil_iff.1 hnames.symm
    cases (Visit.forms scope).one node .callee with
    | error fault => exact .error fault
    | ok form => exact .ok rfl

theorem identifier_callee (scope : Scope) (name : String) :
    identifier scope name .callee =
      .symbol (if scope name then Form.hostName name else name) := by
  cases h : scope name <;> simp [identifier, Context.callee, h]

/-- Each property that is put at the end of a chain is one more getter around its form. -/
theorem agree_dots (scope : Scope) {node : Node} (hroot : node.accessRoot.isThis = false)
    (hnamed : node.isNamedAccess) (names : List String) :
    Agree (fun form object =>
        form.expandAccess = object.expandAccess.follow (names.map .property))
      ((Visit.forms scope).one (node.dots names) .callee)
      ((Visit.forms scope).one node .callee) := by
  obtain ⟨before, hbefore, -⟩ := dotChain_named hnamed
  have hall : (node.dots names).dotChain.2 = (before ++ names).map .identifier := by
    rw [dotChain_dots, hbefore, List.map_append]
  have hlong := agree_dotChain scope (by rwa [accessRoot_dots]) hall
  have hshort := agree_dotChain scope hroot hbefore
  rw [dotChain_dots] at hlong
  refine (hlong.join hshort).imp fun form object hform => ?_
  obtain ⟨target, -, hform, hobject⟩ := hform
  rw [hform, hobject, List.map_append, Form.follow_append]

/-- A chain that starts at `this`: whatever the receiver is called, the same links are read from its
symbol, and the conversion of the chain fails for the same reason. -/
theorem agree_rebindReceiver (scope : Scope) {node : Node} (hroot : node.accessRoot.isThis)
    (hnamed : node.isNamedAccess) :
    ∃ links : Except Fault (List Form.Link), ∀ receiver,
      Agree (fun form links =>
          form.expandAccess = (identifier scope receiver .callee).follow links)
        ((Visit.forms scope).one (node.rebindReceiver receiver) .callee) links := by
  induction node using accessRoot.induct with
  | case1 object property computed ih =>
    simp only [isNamedAccess, Bool.and_eq_true, Bool.or_eq_true] at hnamed
    obtain ⟨links, hlinks⟩ := ih hroot hnamed.1
    have hplain := fun receiver => isThis_accessRoot_rebindReceiver receiver object
    cases computed with
    | false =>
      obtain ⟨name, rfl⟩ := eq_identifier_of_isIdentifier (by simpa using hnamed.2)
      refine ⟨(· ++ [.property name]) <$> links, fun receiver => ?_⟩
      have hread := agree_dots scope (hplain receiver)
        (by rw [isNamedAccess_rebindReceiver]; exact hnamed.1) [name]
      refine (hread.trans (hlinks receiver)).map_right ?_
      rintro form links ⟨inner, hform, hinner⟩
      rw [hform, hinner, Form.follow_concat]
      rfl
    | true =>
      refine ⟨do
        let links ← links
        let key ← (Visit.forms scope).one property
        return links ++ [.element key.expandAccess], fun receiver => ?_⟩
      rw [rebindReceiver, one_plainMember scope (hplain receiver), plainMember, element]
      refine agree_bind (hlinks receiver) fun inner links hinner => ?_
      cases (Visit.forms scope).one property with
      | error fault => exact .error fault
      | ok key =>
        refine .ok ?_
        rw [Form.expandAccess_element, hinner, Form.follow_concat]
  | case2 node hne =>
    cases node with
    | thisExpression =>
      refine ⟨.ok [], fun receiver => .ok ?_⟩
      rw [Form.sequence_singleton, Form.follow_nil, identifier_callee, Form.expandAccess_symbol]
    | memberExpression object property computed => exact absurd rfl (hne object property computed)
    | _ => cases hroot

/-! ### Writes -/

/-- The assignment of a value to a property that does not start at `this`. -/
theorem plainAssignment_property (scope : Scope) (shown object right : Node) (name : String)
    {value : Form} (hvalue : (Visit.forms scope).one right = .ok value) :
    plainAssignment (Visit.forms scope) "=" shown
        (.memberExpression object (.identifier name) false) right = (do
      let object ← (Visit.forms scope).one object .callee
      return .call "set!" [.list [.symbol (Form.dotGetterName name), object], value]) := by
  simp only [plainAssignment, ne_eq, not_true_eq_false, false_and, if_false, hvalue, ok_bind,
    assignTo, getter_eq, pure_bind, bind_assoc]
  rfl

end Rule

namespace Node

open Rule

/-- A form that uses the receiver of a node under a name, inside the list that binds the name if the
node starts at `this`. -/
def underReceiver (node : Node) (receiver : String) (form : Form) : Form :=
  if node.accessRoot.isThis then .thisAs receiver form else form

variable {target : Node} {names : List String}

/-- A read of some properties of a target. -/
theorem agree_read (scope : Scope) (hn : names ≠ []) (hnamed : target.isNamedAccess)
    (context : Context) :
    Agree (fun forms object => ∃ read, forms = [target.underReceiver receiver read] ∧
        read.expandAccess = object.expandAccess.follow (names.map .property))
      ((target.dots names).forms scope context)
      ((Visit.forms scope).one (target.rebindReceiver receiver) .callee) := by
  have hread := agree_dots scope (isThis_accessRoot_rebindReceiver receiver target)
    (by rwa [isNamedAccess_rebindReceiver]) names
  rw [← rebindReceiver_dots] at hread
  have hrooted := isReceiverRooted_dots target hn
  obtain ⟨names, name, rfl⟩ := (List.eq_nil_or_concat names).resolve_left hn
  rw [List.concat_eq_append, dots_concat] at hread hrooted ⊢
  rw [forms_eq, step, member, hrooted]
  cases hthis : target.accessRoot.isThis with
  | false =>
    rw [rebindReceiver_of_not_this (by rwa [accessRoot, accessRoot_dots])] at hread
    rw [one_plainMember scope (by rwa [accessRoot_dots])] at hread
    refine hread.wrap fun form object hform => ⟨form, ?_, hform⟩
    rw [underReceiver, hthis, if_neg Bool.false_ne_true]
  | true =>
    rw [rebindReceiver, one_plainMember scope (isThis_accessRoot_rebindReceiver _ _)] at hread
    rw [if_pos rfl, bind_assoc, rebindReceiver]
    refine hread.wrap fun form object hform => ⟨form, ?_, hform⟩
    rw [underReceiver, hthis, if_pos rfl]

/-- A write to some properties of a target, of a value that has a form. -/
theorem agree_write (scope : Scope) (hn : names ≠ []) (hnamed : target.isNamedAccess)
    {right : Node} {value : Form} (hvalue : (Visit.forms scope).one right = .ok value)
    (context : Context) :
    Agree (fun forms object => ∃ place,
        forms = [target.underReceiver placeReceiver (.call "set!" [place, value])] ∧
        place.expandAccess = object.expandAccess.follow (names.map .property))
      ((Node.assignmentExpression "=" (target.dots names) right).forms scope context)
      ((Visit.forms scope).one (target.rebindReceiver placeReceiver) .callee) := by
  have hrooted := isReceiverRooted_dots target hn
  obtain ⟨names, name, rfl⟩ := (List.eq_nil_or_concat names).resolve_left hn
  have hobject := agree_dots scope (isThis_accessRoot_rebindReceiver placeReceiver target)
    (by rwa [isNamedAccess_rebindReceiver]) names
  rw [← rebindReceiver_dots] at hobject
  rw [List.concat_eq_append, dots_concat] at hrooted ⊢
  rw [forms_eq, step, assignment, hrooted]
  have hplace : ∀ object inner : Form,
      object.expandAccess = inner.expandAccess.follow (names.map .property) →
      (Form.list [.symbol (Form.dotGetterName name), object]).expandAccess =
        inner.expandAccess.follow ((names ++ [name]).map .property) := fun object inner h => by
    rw [Form.expandAccess_getter, h, List.map_append, List.map_singleton, Form.follow_concat]
  cases hthis : target.accessRoot.isThis with
  | false =>
    rw [rebindReceiver_of_not_this (by rwa [accessRoot_dots])] at hobject
    rw [if_neg Bool.false_ne_true, plainAssignment_property scope _ _ _ _ hvalue, bind_assoc]
    refine hobject.wrap fun object inner h => ⟨_, ?_, hplace object inner h⟩
    rw [underReceiver, hthis, if_neg Bool.false_ne_true]
  | true =>
    rw [if_pos rfl, rebindReceiver, plainAssignment_property scope _ _ _ _ hvalue, bind_assoc,
      bind_assoc]
    refine hobject.wrap fun object inner h => ⟨_, ?_, hplace object inner h⟩
    rw [underReceiver, hthis, if_pos rfl]

/-- A read and the place of a write, of some properties of a target. -/
structure SamePlace (scope : Scope) (target : Node) (names : List String) (read place : Form) :
    Prop where
  /-- From any other target, both are the properties read from the form of the target. -/
  plain : target.accessRoot.isThis = false → ∃ object,
    (Visit.forms scope).one target .callee = .ok object ∧
    read.expandAccess = object.expandAccess.follow (names.map .property) ∧
    place.expandAccess = object.expandAccess.follow (names.map .property)
  /-- From `this`, both are the same links read from the symbol of the receiver, and the links up to
  the properties are the form of the target. -/
  rooted : target.accessRoot.isThis → ∃ links,
    (∀ receiver, ∃ object,
      (Visit.forms scope).one (target.rebindReceiver receiver) .callee = .ok object ∧
      object.expandAccess = (Rule.identifier scope receiver .callee).follow links) ∧
    read.expandAccess = (Rule.identifier scope receiver .callee).follow
      (links ++ names.map .property) ∧
    place.expandAccess = (Rule.identifier scope placeReceiver .callee).follow
      (links ++ names.map .property)

/-- A read of a chain of properties and an assignment to it name the same place, or fail for the
same reason: with `..` expanded, both are one getter for each property, in order, around the form of
the target. If the chain starts at `this`, each is under a list of its own that binds the receiver,
and they differ in the symbol of the receiver only. -/
theorem forms_place (scope : Scope) (target : Node) {names : List String} (hn : names ≠ [])
    (hnamed : target.isNamedAccess) {right : Node} {value : Form}
    (hvalue : (Visit.forms scope).one right = .ok value) (context₁ context₂ : Context) :
    Agree (fun forms₁ forms₂ => ∃ read place,
        forms₁ = [target.underReceiver receiver read] ∧
        forms₂ = [target.underReceiver placeReceiver (.call "set!" [place, value])] ∧
        SamePlace scope target names read place)
      ((target.dots names).forms scope context₁)
      ((Node.assignmentExpression "=" (target.dots names) right).forms scope context₂) := by
  have hread := agree_read scope hn hnamed context₁
  have hwrite := agree_write scope hn hnamed hvalue context₂
  cases hthis : target.accessRoot.isThis with
  | false =>
    rw [rebindReceiver_of_not_this hthis] at hread hwrite
    refine (hread.join hwrite).imp ?_
    rintro _ _ ⟨object, hobject, ⟨read, rfl, hr⟩, place, rfl, hp⟩
    refine ⟨read, place, rfl, rfl, fun _ => ⟨object, hobject, hr, hp⟩, fun h => ?_⟩
    rw [hthis] at h
    cases h
  | true =>
    obtain ⟨links, hlinks⟩ := agree_rebindReceiver scope hthis hnamed
    refine ((hread.trans (hlinks receiver)).join (hwrite.trans (hlinks placeReceiver))).imp ?_
    rintro _ _ ⟨links, rfl, ⟨object₁, ⟨read, rfl, hr⟩, h₁⟩, object₂, ⟨place, rfl, hp⟩, h₂⟩
    refine ⟨read, place, rfl, rfl, fun h => ?_, fun _ => ⟨links, fun name => ?_, ?_, ?_⟩⟩
    · rw [hthis] at h
      cases h
    · exact (hlinks name).exists_of_ok
    · rw [hr, h₁, Form.follow_append]
    · rw [hp, h₂, Form.follow_append]

/-- The target `this.a[b()]`. -/
def receiverElement : Node :=
  .memberExpression (.memberExpression .thisExpression (.identifier "a") false)
    (.callExpression (.identifier "b") []) true

/-- A read of `this.a[b()].c.d` and the assignment of `this` to it. -/
theorem forms_receiverElement :
    (receiverElement.dots ["c", "d"]).forms (fun _ => false) = .ok [.thisAs "this"
        (.call ".." [.call "aget" [.list [.symbol ".-a", .symbol "this"], .list [.symbol "b"]],
          .symbol "-c", .symbol "-d"])] ∧
      (Node.assignmentExpression "=" (receiverElement.dots ["c", "d"]) .thisExpression).forms
        (fun _ => false) = .ok [.thisAs "that" (.call "set!" [.list [.symbol ".-d",
          .list [.symbol ".-c", .call "aget" [.list [.symbol ".-a", .symbol "that"],
            .list [.symbol "b"]]]], .thisAs "this" (.symbol "this")])] ∧
      Agree (fun forms₁ forms₂ => ∃ read place,
          forms₁ = [receiverElement.underReceiver receiver read] ∧
          forms₂ = [receiverElement.underReceiver placeReceiver
            (.call "set!" [place, .thisAs "this" (.symbol "this")])] ∧
          SamePlace (fun _ => false) receiverElement ["c", "d"] read place)
        ((receiverElement.dots ["c", "d"]).forms fun _ => false)
        ((Node.assignmentExpression "=" (receiverElement.dots ["c", "d"]) .thisExpression).forms
          fun _ => false) :=
  ⟨rfl, rfl, forms_place _ receiverElement (by decide) (by decide) rfl .value .value⟩

end Node

end ScriptForms
