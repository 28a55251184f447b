import ScriptForms.Proofs.Switch.Group

/-!
# The properties of an object with spreads

An object literal without spreads is a host object of its members. With spreads, the members between
two spreads are put together in a host object of their own, and everything is copied in turn into a
fresh object. The outcome is that of defining the members one by one, in the order of the source: to
copy an object that has just been built is to define its members.

* `Properties.build`: properties that are defined and copied one by one.
* `Form.HasProperties`: the properties of a host object and of an assignment of sources, from the
  values of the forms in them.
* `Form.HasProperties.eq_build`: they are those of the members in order.
* `Rule.Collects`: what an object under construction has of its members.
* `Node.forms_objectExpression_properties`: the form of an object literal has its properties.
-/

namespace ScriptForms

/-! ### Properties -/

/-- The properties of an object: their values by name. -/
abbrev Properties (α : Type) := String → Option α

namespace Properties

variable {α : Type}

/-- The properties of a fresh object. -/
def empty : Properties α := fun _ => none

/-- The properties of an object once one of them is defined. -/
def define (object : Properties α) (name : String) (value : α) : Properties α :=
  Function.update object name (some value)

/-- The properties of an object once those of a source are copied into it. -/
def copy (object source : Properties α) : Properties α :=
  fun name => (source name).or (object name)

theorem empty_copy (source : Properties α) : empty.copy source = source := by
  funext name
  exact Option.or_none

theorem copy_define (object source : Properties α) (name : String) (value : α) :
    object.copy (source.define name value) = (object.copy source).define name value := by
  funext other
  by_cases hname : other = name
  · subst hname
    simp [copy, define]
  · simp [copy, define, hname]

theorem copy_copy (first second third : Properties α) :
    first.copy (second.copy third) = (first.copy second).copy third := by
  funext name
  exact Option.or_assoc

section Build

variable (read : α → Properties α)

/-- The properties of an object with one more member: a value under a name, or, without a name, all
that a value has. -/
def add (object : Properties α) : Option String × α → Properties α
  | (some name, value) => object.define name value
  | (none, value) => object.copy (read value)

/-- The properties of members that are added to an object in order. -/
def build (members : List (Option String × α)) : Properties α := members.foldl (add read) empty

theorem copy_add (object source : Properties α) (member : Option String × α) :
    object.copy (add read source member) = add read (object.copy source) member := by
  obtain ⟨name, value⟩ := member
  cases name with
  | none => exact copy_copy _ _ _
  | some name => exact copy_define _ _ _ _

theorem copy_foldl_add (object source : Properties α) (members : List (Option String × α)) :
    object.copy (members.foldl (add read) source) =
      members.foldl (add read) (object.copy source) := by
  induction members generalizing source with
  | nil => rfl
  | cons member members ih => rw [List.foldl_cons, List.foldl_cons, ih, copy_add]

/-- To copy what has been built is to add its members. -/
theorem copy_build (object : Properties α) (members : List (Option String × α)) :
    object.copy (build read members) = members.foldl (add read) object :=
  copy_foldl_add read object empty members

end Build

end Properties

/-! ### Forms -/

namespace Form

/-- The name of the property that a key stands for. -/
def keyText : Form → String
  | .keyword value | .string value => value
  | _ => ""

/-- A member of an object, as forms. -/
structure Member where
  /-- The key; a spread has none. -/
  key : Option Form
  value : Form

/-- The name of a member. -/
def Member.name (member : Member) : Option String := member.key.map keyText

section Properties

variable {α : Type} {form : Form} {parts : List (Member × α)} {properties : Properties α}

/-- The names of members with their values. -/
def named (parts : List (Member × α)) : List (Option String × α) :=
  parts.map fun part => (part.1.name, part.2)

theorem named_append (first second : List (Member × α)) :
    named (first ++ second) = named first ++ named second :=
  List.map_append

/-- The form is a host object whose entries have these values. Entries are defined in order. -/
def IsLiteral (form : Form) (parts : List (Member × α)) (properties : Properties α) : Prop :=
  ∃ entries : List ((Form × Form) × α),
    form = .hostObject (entries.map fun entry => .mapEntry entry.1.1 entry.1.2) ∧
    parts = entries.map (fun entry => (⟨some entry.1.1, entry.1.2⟩, entry.2)) ∧
    properties = entries.foldl (fun object entry => object.define entry.1.1.keyText entry.2) .empty

variable (read : α → Properties α)

/-- The properties of an argument of an assignment: a host object, whose entries have values, or any
form with a value, of which `read` gives the properties. -/
inductive IsSource : Form → List (Member × α) → Properties α → Prop
  | literal {form : Form} {parts : List (Member × α)} {properties : Properties α}
      (h : IsLiteral form parts properties) : IsSource form parts properties
  | operand (form : Form) (value : α) : IsSource form [(⟨none, form⟩, value)] (read value)

/-- The properties of an object once some sources are copied into it from left to right. -/
inductive Assigns : Properties α → List Form → List (Member × α) → Properties α → Prop
  | nil (object : Properties α) : Assigns object [] [] object
  | cons {object source last : Properties α} {form : Form} {sources : List Form}
      {parts others : List (Member × α)} (h : IsSource read form parts source)
      (hs : Assigns (object.copy source) sources others last) :
      Assigns object (form :: sources) (parts ++ others) last

/-- The properties of the value of a form, from the values of the forms in it in the order in which
they are evaluated: those of a host object, or those of the first argument of an assignment once the
others are copied into it. -/
inductive HasProperties : Form → List (Member × α) → Properties α → Prop
  | literal {form : Form} {parts : List (Member × α)} {properties : Properties α}
      (h : IsLiteral form parts properties) : HasProperties form parts properties
  | assign {target : Form} {sources : List Form} {front parts : List (Member × α)}
      {object properties : Properties α} (h : IsSource read target front object)
      (hs : Assigns read object sources parts properties) :
      HasProperties (.call (hostName "Object.assign") (target :: sources)) (front ++ parts)
        properties

variable {read}

theorem IsLiteral.eq_build (h : IsLiteral form parts properties) (read : α → Properties α) :
    properties = Properties.build read (named parts) := by
  obtain ⟨entries, -, rfl, rfl⟩ := h
  simp only [named, List.map_map, Properties.build, List.foldl_map]
  rfl

theorem IsSource.eq_build (h : IsSource read form parts properties) :
    properties = Properties.build read (named parts) := by
  cases h with
  | literal h => exact h.eq_build read
  | operand value => exact (Properties.empty_copy _).symm

theorem Assigns.eq_foldl {object : Properties α} {sources : List Form}
    (h : Assigns read object sources parts properties) :
    properties = (named parts).foldl (Properties.add read) object := by
  induction h with
  | nil object => rfl
  | cons h hs ih =>
    rw [ih, h.eq_build, Properties.copy_build, named_append, List.foldl_append]

/-- The members of an object count in order, whatever has been put together of them. -/
theorem HasProperties.eq_build (h : HasProperties read form parts properties) :
    properties = Properties.build read (named parts) := by
  cases h with
  | literal h => exact h.eq_build read
  | assign h hs =>
    rw [hs.eq_foldl, h.eq_build, Properties.build, ← List.foldl_append,
      ← named_append, ← Properties.build]

theorem Assigns.append {object middle last : Properties α} {first second : List Form}
    {others : List (Member × α)} (h : Assigns read object first parts middle)
    (hs : Assigns read middle second others last) :
    Assigns read object (first ++ second) (parts ++ others) last := by
  induction h with
  | nil object => exact hs
  | cons h _ ih =>
    rw [List.cons_append, List.append_assoc]
    exact .cons h (ih hs)

theorem assigns_singleton {object source : Properties α} (h : IsSource read form parts source) :
    Assigns read object [form] parts (object.copy source) := by
  have hone := Assigns.cons h (.nil (object.copy source))
  rwa [List.append_nil] at hone

end Properties

end Form

/-! ### Literals -/

namespace Node

/-- The text of a key: a name, a string or a number as it is written. -/
def keyText : Node → String
  | .identifier text | .stringLiteral text | .numericLiteral text => text
  | _ => ""

/-- The name under which a member of an object literal is defined; a spread has none. -/
def memberName : Node → Option String
  | .objectProperty key .. | .objectMethod _ key .. => some key.keyText
  | _ => none

end Node

/-! ### Construction -/

namespace Rule

open Node Form

variable {visit : Visit}

/-- A member of an object literal is converted to a key and a value. -/
inductive IsMember (visit : Visit) : Node → Member → Prop
  | property {key value : Node} {name form : Form} (shorthand : Bool)
      (hk : propertyKey key = .ok name) (hv : visit.one value = .ok form) :
      IsMember visit (.objectProperty key value false shorthand) ⟨some name, form⟩
  | method {key body : Node} {params : List Node} {name form : Form}
      (hk : propertyKey key = .ok name) (hv : function visit "fn" none params body = .ok form) :
      IsMember visit (.objectMethod .method key params body false) ⟨some name, form⟩
  | spread {argument : Node} {form : Form} (hv : visit.one argument = .ok form) :
      IsMember visit (.spreadElement argument) ⟨none, form⟩

/-- The key of a member stands for the text of the key in the script. -/
theorem keyText_propertyKey {key : Node} {name : Form} (h : propertyKey key = .ok name) :
    name.keyText = key.keyText := by
  cases key with
  | identifier text | numericLiteral text =>
    cases h
    rfl
  | stringLiteral text =>
    obtain rfl := Except.ok.inj h
    split <;> rfl
  | _ => cases h

theorem IsMember.name_eq {node : Node} {member : Member} (h : IsMember visit node member) :
    member.name = node.memberName := by
  cases h with
  | property shorthand hk hv => exact congrArg some (keyText_propertyKey hk)
  | method hk hv => exact congrArg some (keyText_propertyKey hk)
  | spread hv => rfl

/-- The entry of a member that is no spread. -/
theorem objectEntry_eq_ok {node : Node} {entry : Form} (h : objectEntry visit node = .ok entry) :
    ∃ key value, IsMember visit node ⟨some key, value⟩ ∧ entry = .mapEntry key value := by
  cases node with
  | objectProperty key value computed shorthand =>
    cases computed with
    | true => cases h
    | false =>
      obtain ⟨name, hname, h⟩ := bind_eq_ok.1 h
      obtain ⟨form, hform, h⟩ := bind_eq_ok.1 h
      exact ⟨name, form, .property shorthand hname hform, (Except.ok.inj h).symm⟩
  | objectMethod kind key params body computed =>
    cases computed with
    | true => cases h
    | false =>
      cases kind with
      | method =>
        obtain ⟨name, hname, h⟩ := bind_eq_ok.1 h
        obtain ⟨form, hform, h⟩ := bind_eq_ok.1 h
        exact ⟨name, form, .method hname hform, (Except.ok.inj h).symm⟩
      | get | set => cases h
  | _ => cases h

/-- What a member does to an object under construction: a spread closes the entries so far, and any
other member is one more entry. -/
theorem objectMember_eq_ok {parts next : ObjectParts} {node : Node}
    (h : objectMember visit parts node = .ok next) :
    (∃ form, IsMember visit node ⟨none, form⟩ ∧ node.isSpread ∧
      next = ⟨parts.closed ++ [form], [], true⟩) ∨
    ∃ key form, IsMember visit node ⟨some key, form⟩ ∧ node.isSpread = false ∧
      next = { parts with entries := parts.entries ++ [.mapEntry key form] } := by
  cases node with
  | spreadElement argument =>
    obtain ⟨form, hform, h⟩ := bind_eq_ok.1 h
    exact .inl ⟨form, .spread hform, rfl, (Except.ok.inj h).symm⟩
  | _ =>
    obtain ⟨entry, hentry, h⟩ := bind_eq_ok.1 h
    obtain ⟨key, form, hmember, rfl⟩ := objectEntry_eq_ok hentry
    exact .inr ⟨key, form, hmember, rfl, (Except.ok.inj h).symm⟩

section Collects

variable {α : Type} (read : α → Properties α)

/-- What an object under construction has of its members so far: its sources are those of some
members up to the last spread, and its entries are the members behind it. -/
def Collects (parts : ObjectParts) (members : List (Member × α)) : Prop :=
  ∃ closed properties, ∃ entries : List ((Form × Form) × α),
    members = closed ++ entries.map (fun entry => (⟨some entry.1.1, entry.1.2⟩, entry.2)) ∧
    Assigns read .empty parts.sources closed properties ∧
    parts.entries = entries.map (fun entry => .mapEntry entry.1.1 entry.1.2) ∧
    (parts.spread = false → parts.sources = [])

variable {read} {parts : ObjectParts} {members : List (Member × α)}

theorem collects_nil : Collects read {} [] := ⟨[], .empty, [], rfl, .nil _, rfl, fun _ => rfl⟩

/-- The entries so far are one more source, unless there are none. -/
theorem Collects.closed (h : Collects read parts members) :
    ∃ properties, Assigns read .empty parts.closed members properties := by
  obtain ⟨closed, properties, entries, rfl, hassigns, hentries, -⟩ := h
  unfold ObjectParts.closed
  cases entries with
  | nil =>
    rw [hentries]
    exact ⟨properties, by simpa using hassigns⟩
  | cons entry entries =>
    rw [hentries]
    have hliteral : IsLiteral (α := α) _ _ _ := ⟨entry :: entries, rfl, rfl, rfl⟩
    exact ⟨_, hassigns.append (assigns_singleton (.literal hliteral))⟩

theorem Collects.spread (h : Collects read parts members) (form : Form) (value : α) :
    Collects read ⟨parts.closed ++ [form], [], true⟩ (members ++ [(⟨none, form⟩, value)]) := by
  obtain ⟨properties, hassigns⟩ := h.closed
  exact ⟨_, _, [], (List.append_nil _).symm,
    hassigns.append (assigns_singleton (.operand form value)), rfl, fun hspread => by cases hspread⟩

theorem Collects.entry (h : Collects read parts members) (key form : Form) (value : α) :
    Collects read { parts with entries := parts.entries ++ [.mapEntry key form] }
      (members ++ [(⟨some key, form⟩, value)]) := by
  obtain ⟨closed, properties, entries, rfl, hassigns, hentries, hsources⟩ := h
  refine ⟨closed, properties, entries ++ [((key, form), value)], ?_, hassigns, ?_, hsources⟩
  · rw [List.append_assoc, List.map_append]
    rfl
  · rw [hentries, List.map_append]
    rfl

/-- The form of an object has what has been collected. -/
theorem Collects.hasProperties (h : Collects read parts members) :
    ∃ properties, HasProperties read parts.form members properties := by
  unfold ObjectParts.form
  cases hspread : parts.spread with
  | true =>
    obtain ⟨properties, hassigns⟩ := h.closed
    exact ⟨properties, .assign (.literal ⟨[], rfl, rfl, rfl⟩) hassigns⟩
  | false =>
    obtain ⟨closed, properties, entries, rfl, hassigns, hentries, hsources⟩ := h
    rw [hsources hspread] at hassigns
    cases hassigns with
    | nil => exact ⟨_, .literal ⟨entries, by rw [hentries]; rfl, rfl, rfl⟩⟩

end Collects

/-- What is collected of an object once more members have been added, whatever their values. -/
theorem collects_foldlM {nodes : List Node} {parts last : ObjectParts}
    (h : nodes.foldlM (objectMember visit) parts = .ok last) :
    ∃ items, List.Forall₂ (IsMember visit) nodes items ∧
      last.spread = (parts.spread || nodes.any isSpread) ∧
      ∀ {α : Type} {read : α → Properties α} (values : List α) (members : List (Member × α)),
        values.length = nodes.length → Collects read parts members →
        Collects read last (members ++ items.zip values) := by
  induction nodes generalizing parts with
  | nil =>
    obtain rfl := Except.ok.inj h
    exact ⟨[], .nil, by simp, fun values members _ hcollects => by simpa using hcollects⟩
  | cons node nodes ih =>
    rw [List.foldlM_cons] at h
    obtain ⟨next, hnext, h⟩ := bind_eq_ok.1 h
    obtain ⟨items, hitems, hspread, hrest⟩ := ih h
    rcases objectMember_eq_ok hnext with ⟨form, hmember, hs, rfl⟩ | ⟨key, form, hmember, hs, rfl⟩
    · refine ⟨_, .cons hmember hitems, by simpa [hs] using hspread, ?_⟩
      rintro α read (_ | ⟨value, values⟩) members hlength hcollects
      · cases hlength
      · rw [List.zip_cons_cons, List.append_cons]
        exact hrest values _ (Nat.succ.inj hlength) (hcollects.spread form value)
    · refine ⟨_, .cons hmember hitems, by simpa [hs] using hspread, ?_⟩
      rintro α read (_ | ⟨value, values⟩) members hlength hcollects
      · cases hlength
      · rw [List.zip_cons_cons, List.append_cons]
        exact hrest values _ (Nat.succ.inj hlength) (hcollects.entry key form value)

/-- The members of an object have the names that they have in the script. -/
theorem named_zip {α : Type} {nodes : List Node} {items : List Member}
    (h : List.Forall₂ (IsMember visit) nodes items) (values : List α) :
    named (items.zip values) =
      (nodes.zip values).map fun member => (member.1.memberName, member.2) := by
  induction h generalizing values with
  | nil => rfl
  | cons hmember h ih =>
    cases values with
    | nil => rfl
    | cons value values =>
      have hrest := ih values
      unfold named at hrest ⊢
      rw [List.zip_cons_cons, List.zip_cons_cons, List.map_cons, List.map_cons, hrest,
        hmember.name_eq]

end Rule

namespace Node

open Rule Form

/-- The form of an object literal is a host object, or an assignment of sources to a fresh one if
the literal has spreads. Whatever the values of its members and the properties of values are, the
form has just the properties that come of defining its members and copying its spreads one by
one. -/
theorem forms_objectExpression_properties (scope : Scope) (properties : List Node)
    (context : Context) {forms : List Form}
    (h : (Node.objectExpression properties).forms scope context = .ok forms) :
    ∃ form items, forms = [form] ∧
      List.Forall₂ (IsMember (.forms scope)) properties items ∧
      (if properties.any isSpread then
        ∃ sources, form = .call (hostName "Object.assign") (.hostObject [] :: sources)
      else ∃ entries, form = .hostObject entries) ∧
      ∀ {α : Type} (read : α → Properties α) (values : List α),
        values.length = properties.length → ∀ result,
          HasProperties read form (items.zip values) result ↔
            result = Properties.build read
              ((properties.zip values).map fun member => (member.1.memberName, member.2)) := by
  rw [forms_eq, step] at h
  obtain ⟨form, hform, h⟩ := bind_eq_ok.1 h
  obtain ⟨parts, hparts, hform⟩ := bind_eq_ok.1 hform
  obtain rfl := Except.ok.inj h
  obtain rfl := Except.ok.inj hform
  obtain ⟨items, hitems, hspread, hcollects⟩ := collects_foldlM hparts
  refine ⟨parts.form, items, rfl, hitems, ?_, fun read values hlength result => ?_⟩
  · rw [ObjectParts.form, hspread, Bool.false_or]
    split
    · exact ⟨_, rfl⟩
    · exact ⟨_, rfl⟩
  · obtain ⟨found, hfound⟩ := (@hcollects _ read values [] hlength collects_nil).hasProperties
    rw [← named_zip hitems values]
    refine ⟨fun hresult => hresult.eq_build, ?_⟩
    rintro rfl
    rw [List.nil_append] at hfound
    rwa [← hfound.eq_build]

/-- The members of `{a: 1, ...x, "b": 2}`. -/
def spreadMembers : List Node :=
  [.objectProperty (.identifier "a") (.numericLiteral "1") false false,
    .spreadElement (.identifier "x"),
    .objectProperty (.stringLiteral "b") (.numericLiteral "2") false false]

/-- The form of `{a: 1, ...x, "b": 2}`. -/
def spreadObject : Form :=
  .call "js/Object.assign" [.hostObject [], .hostObject [.mapEntry (.keyword "a") (.number "1")],
    .symbol "x", .hostObject [.mapEntry (.keyword "b") (.number "2")]]

/-- The properties `a` and `b` of the value 0. -/
def sampleProperties : Nat → Properties Nat
  | 0 => (Properties.empty.define "a" 5).define "b" 6
  | _ => .empty

/-- A spread overrides what stands before it, and is overridden by what stands behind it. -/
theorem forms_spreadMembers :
    (Node.objectExpression spreadMembers).forms (fun _ => false) = .ok [spreadObject] ∧
      ∃ result, HasProperties sampleProperties spreadObject
        [(⟨some (.keyword "a"), .number "1"⟩, 1), (⟨none, .symbol "x"⟩, 0),
          (⟨some (.keyword "b"), .number "2"⟩, 2)] result ∧
        result "a" = some 5 ∧ result "b" = some 2 ∧ result "c" = none := by
  have hforms : (Node.objectExpression spreadMembers).forms (fun _ => false) .value =
      .ok [spreadObject] := rfl
  obtain ⟨form, items, hsingle, hitems, -, hvalue⟩ :=
    forms_objectExpression_properties _ spreadMembers .value hforms
  obtain rfl : spreadObject = form := List.singleton_inj.1 hsingle
  obtain _ | ⟨h₁, _ | ⟨h₂, _ | ⟨h₃, _ | _⟩⟩⟩ := hitems
  cases h₁ with
  | property _ hk₁ hv₁ =>
    cases h₂ with
    | spread hv₂ =>
      cases h₃ with
      | property _ hk₃ hv₃ =>
        cases hk₁
        cases hv₁
        cases hv₂
        cases hk₃
        cases hv₃
        exact ⟨hforms, _, (hvalue sampleProperties [1, 0, 2] rfl _).2 rfl, by decide, by decide,
          by decide⟩

end Node

end ScriptForms
