import ScriptForms.Proofs.Form.Subform

/-!
# The forms of scripts

The forms that scripts are converted to follow a grammar of their own. An item is an atom, a list of
items that is not empty, a function with a vector of names, a `let` with a vector of names and
values, an element with its tag, attributes and children, a host array or a host object. Markers
stand only among the children of an element.

* `Form.IsItem`: the grammar.
* `Form.Placed`: what may stand directly inside what.
* `IsItem.settled`: inside an item, everything stands where it may.
-/

namespace ScriptForms.Form

/-! ### Kinds of forms -/

/-- Whether a form is a symbol. -/
def isSymbol : Form → Bool
  | .symbol _ => true
  | _ => false

/-- Whether a form is the name of a tag or an attribute. -/
def isName : Form → Bool
  | .symbol _ | .keyword _ => true
  | _ => false

/-- Whether a form is an atom. -/
def isAtom : Form → Bool
  | .symbol _ | .keyword _ | .number _ | .string _ | .boolean _ | .regex .. => true
  | _ => false

/-- Whether a form is a comment. -/
def isComment : Form → Bool
  | .comment _ => true
  | _ => false

/-- Whether a form is a map. -/
def isMap : Form → Bool
  | .hashMap _ => true
  | _ => false

/-- Whether a form is an entry of a map. -/
def isEntry : Form → Bool
  | .mapEntry .. => true
  | _ => false

/-- Whether a form is a list without items. -/
def isEmptyList : Form → Bool
  | .list [] => true
  | _ => false

/-- Whether a form is `nil`. -/
def isNil : Form → Bool
  | .symbol name => name = "nil"
  | _ => false

/-- Whether a form is an element: a vector of a tag, attributes and children. -/
def isElement : Form → Bool
  | .vector (tag :: attributes :: _) => tag.isName && (attributes.isNil || attributes.isMap)
  | _ => false

/-- Whether a form is a vector. -/
def isVector : Form → Bool
  | .vector _ => true
  | _ => false

/-- Whether a form has a vector of its own: a host array, the parameters of a function or the
bindings of a `let`. -/
def ownsVector : Form → Bool
  | .tagged .. => true
  | .list (.symbol head :: _) => head = "fn" || head = "defn" || head = "let"
  | _ => false

/-- Whether a tag of the form is `#js` and stands over a vector or a map; true of a form without a
tag. -/
def isWellTagged : Form → Bool
  | .tagged tag form => tag = "#js" && (form.isVector || form.isMap)
  | _ => true

/-! ### Items -/

/-- The entries of a map. -/
def entries (pairs : List (Form × Form)) : List Form :=
  pairs.map fun pair => .mapEntry pair.1 pair.2

/-- The attributes of an element. -/
def attributeForm (pairs : List (Form × Form)) : Form :=
  if pairs.isEmpty then .nil else .hashMap (entries pairs)

/-- The names and values of a `let`. -/
def bindingForms (pairs : List (Form × Form)) : List Form :=
  pairs.flatMap fun pair => [pair.1, pair.2]

/-- The forms that stand for expressions and for statements with an effect. -/
inductive IsItem : Form → Prop
  | atom {form : Form} (h : form.isAtom) : IsItem form
  | list {items : List Form} (hne : items ≠ []) (h : ∀ item ∈ items, IsItem item) :
      IsItem (.list items)
  | function {head : String} {name : Option Form} {params body : List Form}
      (hh : head = "fn" ∨ head = "defn") (hn : ∀ n ∈ name, n.isSymbol)
      (hp : ∀ p ∈ params, p.isSymbol) (hb : ∀ b ∈ body, IsItem b) :
      IsItem (.call head (name.toList ++ .vector params :: body))
  | binding {pairs : List (Form × Form)} {body : List Form} (hn : ∀ p ∈ pairs, p.1.isSymbol)
      (hv : ∀ p ∈ pairs, IsItem p.2) (hb : ∀ b ∈ body, IsItem b) :
      IsItem (.call "let" (.vector (bindingForms pairs) :: body))
  | element {tag : Form} {pairs : List (Form × Form)} {children : List Form} (ht : tag.isName)
      (hk : ∀ p ∈ pairs, p.1.isName) (hv : ∀ p ∈ pairs, IsItem p.2)
      (hc : ∀ c ∈ children, ¬c.isMarker → IsItem c) :
      IsItem (.vector (tag :: attributeForm pairs :: children))
  | hostArray {items : List Form} (h : ∀ item ∈ items, IsItem item) : IsItem (.hostArray items)
  | hostObject {pairs : List (Form × Form)} (hk : ∀ p ∈ pairs, p.1.isAtom)
      (hv : ∀ p ∈ pairs, IsItem p.2) : IsItem (.hostObject (entries pairs))

theorem isItem_symbol (name : String) : IsItem (.symbol name) := .atom rfl

theorem isAtom_of_isName {form : Form} (h : form.isName) : form.isAtom := by
  cases form with
  | symbol name | keyword value => rfl
  | _ => cases h

theorem isAtom_of_isSymbol {form : Form} (h : form.isSymbol) : form.isAtom := by
  cases form with
  | symbol name => rfl
  | _ => cases h

theorem isItem_of_isSymbol {form : Form} (h : form.isSymbol) : IsItem form :=
  .atom (isAtom_of_isSymbol h)

theorem isItem_call (head : String) {args : List Form} (h : ∀ arg ∈ args, IsItem arg) :
    IsItem (.call head args) :=
  .list (by simp) (List.forall_mem_cons.2 ⟨isItem_symbol head, h⟩)

/-- Several items as one are an item. -/
theorem isItem_sequence {forms : List Form} (h : ∀ form ∈ forms, IsItem form) :
    IsItem (sequence forms) := by
  unfold sequence
  split
  · exact h _ (by simp)
  · exact isItem_call "do" h

/-! ### Places -/

/-- The second form may stand directly inside the first. A vector that is no element belongs to the
form around it and holds no markers. -/
structure Placed (parent child : Form) : Prop where
  program : ¬child.isProgram
  comment : child.isComment → parent.isProgram
  marker : child.isMarker → parent.isProgram ∨ parent.isElement
  entry : child.isEntry ↔ parent.isMap
  tagged : child.isWellTagged
  list : ¬child.isEmptyList
  vector : child.isVector → child.isElement ∨
    parent.ownsVector ∧ ∀ item ∈ child.parts, ¬item.isMarker

/-- Everything inside the form stands where it may. -/
def Settled (form : Form) : Prop :=
  ∀ parent ∈ form.subforms, ∀ child ∈ parent.parts, Placed parent child

theorem settled_iff {form : Form} :
    form.Settled ↔ ∀ part ∈ form.parts, Placed form part ∧ part.Settled :=
  forall_subforms_iff.trans ⟨fun h part hp => ⟨h.1 part hp, h.2 part hp⟩,
    fun h => ⟨fun part hp => (h part hp).1, fun part hp => (h part hp).2⟩⟩

theorem settled_of_parts_eq_nil {form : Form} (h : form.parts = []) : form.Settled := by
  rw [settled_iff, h]
  simp

/-- Whether a form may stand anywhere but directly inside a map. -/
def isOrdinary (form : Form) : Bool :=
  !form.isProgram && !form.isComment && !form.isMarker && !form.isEntry && form.isWellTagged &&
    !form.isEmptyList && (!form.isVector || form.isElement)

theorem placed_of_isOrdinary {parent child : Form} (hp : parent.isMap = false)
    (h : child.isOrdinary) : Placed parent child := by
  simp only [isOrdinary, Bool.and_eq_true, Bool.not_eq_true', Bool.or_eq_true] at h
  obtain ⟨⟨⟨⟨⟨⟨hprogram, hcomment⟩, hmarker⟩, hentry⟩, htagged⟩, hlist⟩, hvector⟩ := h
  constructor
  · simp [hprogram]
  · simp [hcomment]
  · simp [hmarker]
  · simp [hentry, hp]
  · exact htagged
  · simp [hlist]
  · intro hv
    exact .inl (by simpa [hv] using hvector)

theorem placed_marker {parent child : Form} (hp : parent.isProgram ∨ parent.isElement)
    (h : child.isMarker) : Placed parent child := by
  have hmap : parent.isMap = false := by
    cases parent with
    | hashMap children => simp [isProgram, isElement] at hp
    | _ => rfl
  cases child with
  | empty | leave =>
    constructor
    case marker => exact fun _ => hp
    all_goals simp [isProgram, isComment, isEntry, isWellTagged, isEmptyList, isVector, hmap]
  | _ => cases h

theorem placed_comment {parent : Form} (hp : parent.isProgram) (text : String) :
    Placed parent (.comment text) := by
  have hmap : parent.isMap = false := by
    cases parent with
    | program children => rfl
    | _ => cases hp
  constructor
  case comment => exact fun _ => hp
  all_goals simp [isProgram, isMarker, isEntry, isWellTagged, isEmptyList, isVector, hmap]

/-- A vector of items belongs to a form that has a vector of its own. -/
theorem placed_vector {parent : Form} (ho : parent.ownsVector) {items : List Form}
    (h : ∀ item ∈ items, ¬item.isMarker) : Placed parent (.vector items) := by
  have hmap : parent.isMap = false := by
    cases parent with
    | hashMap children => cases ho
    | _ => rfl
  constructor
  case vector => exact fun _ => .inr ⟨ho, h⟩
  all_goals simp [isProgram, isComment, isMarker, isEntry, isWellTagged, isEmptyList, hmap]

theorem placed_entry (items : List Form) (key value : Form) :
    Placed (.hashMap items) (.mapEntry key value) := by
  constructor <;>
    simp [isProgram, isComment, isMarker, isEntry, isMap, isWellTagged, isEmptyList, isVector]

theorem isElement_element {tag : Form} (ht : tag.isName) (pairs : List (Form × Form))
    (children : List Form) : (Form.vector (tag :: attributeForm pairs :: children)).isElement := by
  unfold attributeForm
  split <;> simp [isElement, ht, isNil, isMap, nil]

theorem IsItem.not_isMarker {form : Form} (h : IsItem form) : ¬form.isMarker := by
  cases h with
  | atom h => cases form <;> simp_all [isAtom, isMarker]
  | _ => exact Bool.false_ne_true

theorem IsItem.isOrdinary {form : Form} (h : IsItem form) : form.isOrdinary := by
  cases h with
  | atom h => cases form <;> first | rfl | cases h
  | @list items hne h =>
    cases items with
    | nil => exact absurd rfl hne
    | cons item items => rfl
  | function | binding | hostArray | hostObject => rfl
  | @element tag pairs children ht hk hv hc =>
    rw [Form.isOrdinary, isElement_element ht]
    rfl

/-! ### Items are settled -/

/-- The form is an item in which everything stands where it may. -/
def Sound (form : Form) : Prop := form.IsItem ∧ form.Settled

theorem sound_of_isAtom {form : Form} (h : form.isAtom) : form.Sound := by
  refine ⟨.atom h, settled_of_parts_eq_nil ?_⟩
  cases form <;> first | rfl | cases h

theorem Sound.placed {parent child : Form} (h : child.Sound) (hp : parent.isMap = false) :
    Placed parent child ∧ child.Settled :=
  ⟨placed_of_isOrdinary hp h.1.isOrdinary, h.2⟩

theorem settled_of_sound {form : Form} (hm : form.isMap = false)
    (h : ∀ part ∈ form.parts, part.Sound) : form.Settled :=
  settled_iff.2 fun part hp => (h part hp).placed hm

/-- A form with a vector of its own is settled if the vector and the parts around it are sound. -/
theorem settled_of_ownsVector {form : Form} (ho : form.ownsVector) (front : List Form)
    {items back : List Form} (hparts : form.parts = front ++ .vector items :: back)
    (hf : ∀ f ∈ front, f.Sound) (hi : ∀ i ∈ items, i.Sound) (hb : ∀ b ∈ back, b.Sound) :
    form.Settled := by
  have hmap : form.isMap = false := by
    cases form with
    | hashMap children => cases ho
    | _ => rfl
  refine settled_iff.2 fun part hm => ?_
  rw [hparts, List.mem_append, List.mem_cons] at hm
  rcases hm with hm | rfl | hm
  · exact (hf part hm).placed hmap
  · exact ⟨placed_vector ho fun i hm => (hi i hm).1.not_isMarker, settled_of_sound rfl hi⟩
  · exact (hb part hm).placed hmap

theorem settled_map {pairs : List (Form × Form)} (hk : ∀ p ∈ pairs, p.1.isAtom)
    (hv : ∀ p ∈ pairs, p.2.Sound) : (Form.hashMap (entries pairs)).Settled := by
  refine settled_iff.2 fun entry he => ?_
  obtain ⟨pair, hp, rfl⟩ := List.mem_map.1 he
  refine ⟨placed_entry _ _ _, settled_of_sound rfl ?_⟩
  simpa [parts] using ⟨sound_of_isAtom (hk pair hp), hv pair hp⟩

theorem settled_element {tag : Form} {pairs : List (Form × Form)} {children : List Form}
    (ht : tag.isName) (hk : ∀ p ∈ pairs, p.1.isName) (hv : ∀ p ∈ pairs, p.2.Sound)
    (hc : ∀ c ∈ children, ¬c.isMarker → c.Sound) :
    (Form.vector (tag :: attributeForm pairs :: children)).Settled := by
  refine settled_iff.2 fun part hm => ?_
  simp only [parts, List.mem_cons] at hm
  rcases hm with rfl | rfl | hm
  · exact (sound_of_isAtom (isAtom_of_isName ht)).placed rfl
  · unfold attributeForm
    split
    · exact (sound_of_isAtom rfl).placed rfl
    · exact ⟨placed_of_isOrdinary rfl rfl, settled_map (fun p hp => isAtom_of_isName (hk p hp)) hv⟩
  · -- A marker is allowed here since the vector is an element.
    by_cases hmarker : part.isMarker
    · have helement := isElement_element ht pairs children
      refine ⟨placed_marker (.inr helement) hmarker, settled_of_parts_eq_nil ?_⟩
      cases part <;> first | rfl | cases hmarker
    · exact (hc part hm hmarker).placed rfl

/-- Inside an item, everything stands where it may. -/
theorem IsItem.settled {form : Form} (h : IsItem form) : form.Settled := by
  induction h with
  | atom h => exact (sound_of_isAtom h).2
  | list hne h ih => exact settled_of_sound rfl fun item hm => ⟨h item hm, ih item hm⟩
  | @function head name params body hh hn hp hb ih =>
    have howns : (call head (name.toList ++ .vector params :: body)).ownsVector := by
      rcases hh with rfl | rfl <;> rfl
    refine settled_of_ownsVector howns (.symbol head :: name.toList) rfl ?_ ?_ ?_
    · refine List.forall_mem_cons.2 ⟨sound_of_isAtom rfl, fun n hm => ?_⟩
      exact sound_of_isAtom (isAtom_of_isSymbol (hn n (Option.mem_toList.1 hm)))
    · exact fun p hm => sound_of_isAtom (isAtom_of_isSymbol (hp p hm))
    · exact fun b hm => ⟨hb b hm, ih b hm⟩
  | @binding pairs body hn hv hb ihv ihb =>
    refine settled_of_ownsVector rfl [.symbol "let"] rfl ?_ (fun b hm => ?_) ?_
    · exact List.forall_mem_singleton.2 (sound_of_isAtom rfl)
    · obtain ⟨pair, hpair, hm⟩ := List.mem_flatMap.1 hm
      rcases List.mem_pair.1 hm with rfl | rfl
      · exact sound_of_isAtom (isAtom_of_isSymbol (hn pair hpair))
      · exact ⟨hv pair hpair, ihv pair hpair⟩
    · exact fun b hm => ⟨hb b hm, ihb b hm⟩
  | element ht hk hv hc ihv ihc =>
    exact settled_element ht hk (fun p hp => ⟨hv p hp, ihv p hp⟩)
      fun c hm hmarker => ⟨hc c hm hmarker, ihc c hm hmarker⟩
  | hostArray h ih =>
    exact settled_of_ownsVector rfl [] rfl (by simp)
      (fun item hm => ⟨h item hm, ih item hm⟩) (by simp)
  | hostObject hk hv ih =>
    refine settled_iff.2 fun part hm => ?_
    rw [List.mem_singleton.1 hm]
    exact ⟨placed_of_isOrdinary rfl rfl, settled_map hk fun p hp => ⟨hv p hp, ih p hp⟩⟩

end ScriptForms.Form
