import ScriptForms.Proofs.Switch.Group

/-!
# The value of an array with spreads

An array literal without spreads is a host array of its elements. The first spread closes it: from
there on every element is an argument of `.concat`, which splices the arguments that are arrays and
appends the others. That is right for a spread, and for an element that is no array. An element
behind a spread that is an array itself loses its brackets.

* `Form.Evaluates`: the value of the form of an array, from the values of its elements.
* `Node.literalValue`: the value of an array literal.
* `Rule.evaluates_foldlM`: what the construction of an array evaluates to.
* `Node.forms_arrayExpression_value_iff`: the values for which the two are the same.
-/

namespace ScriptForms

/-! ### Values -/

/-- A value: an array, or anything else. -/
inductive Value (α : Type) where
  | array (items : List (Value α))
  | other (value : α)

namespace Value

variable {α : Type}

/-- Whether a value is an array. -/
def isArray : Value α → Bool
  | .array _ => true
  | .other _ => false

/-- The items of an array. -/
def items : Value α → List (Value α)
  | .array items => items
  | .other _ => []

/-- What is appended of an argument of `.concat`: the items of an array, or the value itself. -/
def spliced : Value α → List (Value α)
  | .array items => items
  | .other value => [.other value]

mutual

/-- The number of arrays and other values that a value is made of. -/
def nodes : Value α → Nat
  | .array items => nodesAll items + 1
  | .other _ => 1

/-- The number of arrays and other values that some values are made of. -/
def nodesAll : List (Value α) → Nat
  | [] => 0
  | value :: values => nodes value + nodesAll values

end

theorem spliced_of_isArray {value : Value α} (h : value.isArray) : value.spliced = value.items := by
  cases value with
  | array items => rfl
  | other value => cases h

theorem spliced_of_not_isArray {value : Value α} (h : value.isArray = false) :
    value.spliced = [value] := by
  cases value with
  | array items => cases h
  | other value => rfl

theorem nodesAll_append (first second : List (Value α)) :
    nodesAll (first ++ second) = nodesAll first + nodesAll second := by
  induction first with
  | nil => simp [nodesAll]
  | cons value first ih =>
    rw [List.cons_append, nodesAll, nodesAll, ih]
    omega

theorem nodesAll_singleton (value : Value α) : nodesAll [value] = nodes value := by
  simp [nodesAll]

/-- Splicing takes the brackets off an array. -/
theorem nodesAll_spliced (value : Value α) :
    nodesAll value.spliced + (if value.isArray then 1 else 0) = nodes value := by
  cases value with
  | array items => simp [spliced, isArray, nodes]
  | other value => simp [spliced, isArray, nodes, nodesAll]

end Value

namespace Form

variable {α : Type} {form base : Form} {parts : List (Form × Value α)} {value : Value α}

/-- The form of an array has a value, given the forms of its elements with their values in the order
in which they are evaluated: a host array holds the values of its items, and `.concat` appends to an
array the items of each argument that is an array, and any other argument as one item. -/
inductive Evaluates : Form → List (Form × Value α) → Value α → Prop where
  | hostArray (parts : List (Form × Value α)) :
      Evaluates (.hostArray (parts.map Prod.fst)) parts (.array (parts.map Prod.snd))
  | concat {base : Form} {front : List (Form × Value α)} {items : List (Value α)}
      (args : List (Form × Value α)) (h : Evaluates base front (.array items)) :
      Evaluates (.call ".concat" (base :: args.map Prod.fst)) (front ++ args)
        (.array (items ++ args.flatMap fun arg => arg.2.spliced))

theorem evaluates_hostArray_iff {items : List Form} :
    Evaluates (.hostArray items) parts value ↔
      items = parts.map Prod.fst ∧ value = .array (parts.map Prod.snd) := by
  constructor
  · intro h
    generalize hform : Form.hostArray items = form at h
    cases h with
    | hostArray parts =>
      simp only [Form.hostArray, Form.tagged.injEq, Form.vector.injEq, true_and] at hform
      exact ⟨hform, rfl⟩
    | concat args h => cases hform
  · rintro ⟨rfl, rfl⟩
    exact .hostArray parts

theorem evaluates_concat_iff {args : List Form} :
    Evaluates (.call ".concat" args) parts value ↔ ∃ base front back items,
      Evaluates base front (.array items) ∧ args = base :: back.map Prod.fst ∧
      parts = front ++ back ∧ value = .array (items ++ back.flatMap fun arg => arg.2.spliced) := by
  constructor
  · intro h
    generalize hform : Form.call ".concat" args = form at h
    cases h with
    | hostArray parts => cases hform
    | concat back h =>
      simp only [Form.call, Form.list.injEq, List.cons.injEq, true_and] at hform
      exact ⟨_, _, back, _, h, hform, rfl, rfl⟩
  · rintro ⟨base, front, back, items, h, rfl, rfl, rfl⟩
    exact .concat back h

/-- The form of an array has one value. -/
theorem Evaluates.unique (h : Evaluates form parts value) {other : Value α}
    (h' : Evaluates form parts other) : other = value := by
  induction h generalizing other with
  | hostArray parts => exact (evaluates_hostArray_iff.1 h').2
  | concat args h ih =>
    obtain ⟨base', front', back', items', hbase, hargs, hparts, rfl⟩ := evaluates_concat_iff.1 h'
    obtain ⟨rfl, hback⟩ := List.cons.inj hargs
    -- The arguments are as many in both readings, so that they are the same.
    have hlength : args.length = back'.length := by
      have := congrArg List.length hback
      simpa using this
    obtain ⟨rfl, rfl⟩ := List.append_inj' hparts hlength
    rw [Value.array.inj (ih hbase)]

end Form

namespace Node

variable {α : Type}

/-! ### Literals -/

/-- The node whose value an element of an array gives: the argument of a spread, or the element. -/
def elementNode : Node → Node
  | .spreadElement argument => argument
  | node => node

/-- The items of an array literal, given the value of each element. -/
def literalItems (pairs : List (Node × Value α)) : List (Value α) :=
  pairs.flatMap fun pair => if pair.1.isSpread then pair.2.items else [pair.2]

/-- The value of an array literal: spreads are spliced, and any other element is one item. -/
def literalValue (pairs : List (Node × Value α)) : Value α := .array (literalItems pairs)

/-- The items that the construction of an array appends; `spread` says whether a spread has been met
before. -/
def builtItems (spread : Bool) : List (Node × Value α) → List (Value α)
  | [] => []
  | (element, value) :: pairs =>
    (if spread || element.isSpread then value.spliced else [value]) ++
      builtItems (spread || element.isSpread) pairs

/-- The values of the spreads of an array are arrays. -/
def SpreadsArrays (elements : List Node) (values : List (Value α)) : Prop :=
  List.Forall₂ (fun element value => element.isSpread → value.isArray) elements values

/-- No element behind a spread is an array, unless it is a spread itself; `spread` says whether a
spread has been met before. -/
def KeepsBrackets (spread : Bool) (pairs : List (Node × Value α)) : Prop :=
  ∀ front element value back, pairs = front ++ (element, value) :: back →
    (spread || front.any (·.1.isSpread)) → element.isSpread = false → value.isArray = false

theorem KeepsBrackets.tail {spread : Bool} {element : Node} {value : Value α}
    {pairs : List (Node × Value α)} (h : KeepsBrackets spread ((element, value) :: pairs)) :
    KeepsBrackets (spread || element.isSpread) pairs := by
  intro front other value' back hpairs hspread hother
  refine h ((element, value) :: front) other value' back ?_ ?_ hother
  · rw [hpairs, List.cons_append]
  · rwa [List.any_cons, ← Bool.or_assoc]

theorem builtItems_append (spread : Bool) (first second : List (Node × Value α)) :
    builtItems spread (first ++ second) =
      builtItems spread first ++ builtItems (spread || first.any (·.1.isSpread)) second := by
  induction first generalizing spread with
  | nil => simp [builtItems]
  | cons pair first ih =>
    obtain ⟨element, value⟩ := pair
    rw [List.cons_append, builtItems, ih, builtItems, List.append_assoc, List.any_cons,
      Bool.or_assoc]

theorem literalItems_cons (element : Node) (value : Value α) (pairs : List (Node × Value α)) :
    literalItems ((element, value) :: pairs) =
      (if element.isSpread then value.items else [value]) ++ literalItems pairs := rfl

/-- The construction takes brackets off, if anything. -/
theorem nodesAll_builtItems_le (spread : Bool) {pairs : List (Node × Value α)}
    (h : ∀ pair ∈ pairs, pair.1.isSpread → pair.2.isArray) :
    Value.nodesAll (builtItems spread pairs) ≤ Value.nodesAll (literalItems pairs) := by
  induction pairs generalizing spread with
  | nil => exact Nat.le_refl _
  | cons pair pairs ih =>
    obtain ⟨element, value⟩ := pair
    rw [List.forall_mem_cons] at h
    have hrest := ih (spread || element.isSpread) h.2
    have hvalue := Value.nodesAll_spliced value
    rw [builtItems, literalItems_cons, Value.nodesAll_append, Value.nodesAll_append]
    by_cases hs : element.isSpread
    · have hitems : value.spliced = value.items := Value.spliced_of_isArray (h.1 hs)
      rw [hs, Bool.or_true] at hrest ⊢
      rw [if_pos rfl, if_pos rfl, hitems]
      omega
    · rw [Bool.not_eq_true] at hs
      rw [hs, Bool.or_false] at hrest ⊢
      rw [if_neg Bool.false_ne_true, Value.nodesAll_singleton]
      split
      · omega
      · rw [Value.nodesAll_singleton]
        omega

theorem builtItems_eq_of_keepsBrackets (spread : Bool) {pairs : List (Node × Value α)}
    (h : ∀ pair ∈ pairs, pair.1.isSpread → pair.2.isArray) (hkeeps : KeepsBrackets spread pairs) :
    builtItems spread pairs = literalItems pairs := by
  induction pairs generalizing spread with
  | nil => rfl
  | cons pair pairs ih =>
    obtain ⟨element, value⟩ := pair
    rw [List.forall_mem_cons] at h
    rw [builtItems, literalItems_cons, ih (spread || element.isSpread) h.2 hkeeps.tail]
    congr 1
    by_cases hs : element.isSpread
    · rw [hs, Bool.or_true, if_pos rfl, if_pos rfl, Value.spliced_of_isArray (h.1 hs)]
    · rw [Bool.not_eq_true] at hs
      rw [hs, Bool.or_false, if_neg Bool.false_ne_true]
      split
      · rename_i hspread
        have hvalue := hkeeps [] element value pairs rfl (by simp [hspread]) hs
        exact Value.spliced_of_not_isArray hvalue
      · rfl

/-- The items of the construction are those of the literal iff no brackets are lost. -/
theorem builtItems_eq_iff {pairs : List (Node × Value α)}
    (h : ∀ pair ∈ pairs, pair.1.isSpread → pair.2.isArray) :
    builtItems false pairs = literalItems pairs ↔ KeepsBrackets false pairs := by
  refine ⟨fun heq front element value back hpairs hspread helement => ?_,
    builtItems_eq_of_keepsBrackets false h⟩
  subst hpairs
  rw [List.forall_mem_append, List.forall_mem_cons] at h
  by_contra harray
  rw [Bool.not_eq_false] at harray
  -- The brackets of this value are counted in the literal only.
  have hfront := nodesAll_builtItems_le false h.1
  have hback := nodesAll_builtItems_le true h.2.2
  have hvalue := Value.nodesAll_spliced value
  have hnodes := congrArg Value.nodesAll heq
  rw [builtItems_append, hspread, builtItems, Bool.true_or, if_pos rfl,
    show literalItems (front ++ (element, value) :: back) = literalItems front ++
      literalItems ((element, value) :: back) from List.flatMap_append, literalItems_cons, helement,
    if_neg Bool.false_ne_true] at hnodes
  simp only [Value.nodesAll_append, Value.nodesAll_singleton] at hnodes
  rw [harray, if_pos rfl] at hvalue
  omega

/-- No brackets are lost whatever the elements are iff behind a spread there are only spreads. -/
theorem forall_keepsBrackets_iff {elements : List Node} :
    (∀ values : List (Value α), SpreadsArrays elements values →
        KeepsBrackets false (elements.zip values)) ↔
      ∀ front element back, elements = front ++ element :: back → front.any isSpread →
        element.isSpread := by
  constructor
  · intro hkeeps front element back helements hspread
    by_contra hplain
    rw [Bool.not_eq_true] at hplain
    -- If all elements are arrays, this one loses its brackets.
    have harrays : SpreadsArrays elements (elements.map fun _ => (.array [] : Value α)) :=
      List.forall₂_map_right_iff.2 (List.forall₂_same.2 fun _ _ _ => rfl)
    have hzip : elements.zip (elements.map fun _ => (.array [] : Value α)) =
        front.map (fun e => (e, .array [])) ++ (element, .array []) ::
          back.map fun e => (e, .array []) := by
      rw [helements, ← List.map_id (front ++ element :: back), List.map_map, List.zip_map']
      simp
    have hvalue := hkeeps _ harrays _ element (.array []) _ hzip (by simpa using hspread) hplain
    cases hvalue
  · intro hlast values hvalues front element value back hpairs hspread hplain
    have helements := congrArg (List.map Prod.fst) hpairs
    rw [List.map_fst_zip (Nat.le_of_eq hvalues.length_eq), List.map_append, List.map_cons]
      at helements
    have hs := hlast _ element _ helements (by simpa using hspread)
    rw [hplain] at hs
    cases hs

end Node

namespace Rule

open Node Form

variable {α : Type} {visit : Visit}

/-! ### Construction -/

/-- What an element does to an array under construction: a spread closes what has been built so far,
and anything else is put at the end. -/
theorem arrayElement_eq_ok {parts next : ArrayParts} {element : Node}
    (h : arrayElement visit parts element = .ok next) :
    ∃ item, visit.one element.elementNode = .ok item ∧
      ((element.isSpread ∧ next = ⟨[parts.form, item], true⟩) ∨
        (element.isSpread = false ∧ next = { parts with items := parts.items ++ [item] })) := by
  cases element with
  | spreadElement argument =>
    obtain ⟨item, hitem, h⟩ := bind_eq_ok.1 h
    exact ⟨item, hitem, .inl ⟨rfl, (Except.ok.inj h).symm⟩⟩
  | _ =>
    obtain ⟨item, hitem, h⟩ := bind_eq_ok.1 h
    exact ⟨item, hitem, .inr ⟨rfl, (Except.ok.inj h).symm⟩⟩

/-- An element that is put at the end of a host array is an item; at the end of the arguments of
`.concat` it is spliced. -/
theorem evaluates_push {parts : ArrayParts} {front : List (Form × Value α)}
    {items : List (Value α)} (h : Evaluates parts.form front (.array items)) (item : Form)
    (value : Value α) :
    Evaluates (ArrayParts.form { parts with items := parts.items ++ [item] })
      (front ++ [(item, value)])
      (.array (items ++ if parts.concat then value.spliced else [value])) := by
  obtain ⟨forms, concat⟩ := parts
  cases concat with
  | false =>
    obtain ⟨rfl, hitems⟩ := evaluates_hostArray_iff.1 h
    refine evaluates_hostArray_iff.2 ⟨by simp, ?_⟩
    rw [Value.array.inj hitems]
    simp
  | true =>
    obtain ⟨base, before, args, others, hbase, rfl, rfl, hitems⟩ := evaluates_concat_iff.1 h
    refine evaluates_concat_iff.2 ⟨base, before, args ++ [(item, value)], others, hbase, ?_, ?_, ?_⟩
    · simp
    · rw [List.append_assoc]
    · rw [Value.array.inj hitems]
      simp

/-- A spread appends its items to what has been built so far. -/
theorem evaluates_spread {parts : ArrayParts} {front : List (Form × Value α)}
    {items : List (Value α)} (h : Evaluates parts.form front (.array items)) (item : Form)
    (value : Value α) :
    Evaluates (ArrayParts.form ⟨[parts.form, item], true⟩) (front ++ [(item, value)])
      (.array (items ++ value.spliced)) :=
  evaluates_concat_iff.2 ⟨parts.form, front, [(item, value)], items, h, rfl, rfl, by simp⟩

/-- What has been built of an array evaluates to what it had before and the items of the elements
that have been added. -/
theorem evaluates_foldlM {elements : List Node} {parts last : ArrayParts}
    (h : elements.foldlM (arrayElement visit) parts = .ok last) :
    ∃ forms, List.Forall₂ (fun element form => visit.one element.elementNode = .ok form)
        elements forms ∧
      ∀ (values : List (Value α)) (front : List (Form × Value α)) (items : List (Value α)),
        values.length = elements.length → Evaluates parts.form front (.array items) →
        Evaluates last.form (front ++ forms.zip values)
          (.array (items ++ builtItems parts.concat (elements.zip values))) := by
  induction elements generalizing parts with
  | nil =>
    obtain rfl := Except.ok.inj h
    refine ⟨[], .nil, fun values front items _ heval => ?_⟩
    simpa [builtItems] using heval
  | cons element elements ih =>
    rw [List.foldlM_cons] at h
    obtain ⟨next, hnext, h⟩ := bind_eq_ok.1 h
    obtain ⟨form, hform, hcases⟩ := arrayElement_eq_ok hnext
    obtain ⟨forms, hforms, hrest⟩ := ih h
    refine ⟨form :: forms, .cons hform hforms, fun values front items hlength heval => ?_⟩
    cases values with
    | nil => cases hlength
    | cons value values =>
      have hlength : values.length = elements.length := Nat.succ.inj hlength
      rw [List.zip_cons_cons, List.zip_cons_cons, builtItems, ← List.append_assoc,
        List.append_cons]
      rcases hcases with ⟨hs, rfl⟩ | ⟨hs, rfl⟩
      · rw [hs, Bool.or_true, if_pos rfl]
        exact hrest values _ _ hlength (evaluates_spread heval form value)
      · rw [hs, Bool.or_false]
        exact hrest values _ _ hlength (evaluates_push heval form value)

end Rule

namespace Node

open Rule Form

variable {α : Type}

/-- The form of an array literal has one value for all values of its elements, where those of the
spreads are arrays. It is the value of the literal iff no element behind a spread is an array
without being spread. So a literal keeps its value whatever its elements are iff behind a spread it
has only spreads. -/
theorem forms_arrayExpression_value_iff (scope : Scope) (elements : List Node) (context : Context)
    {forms : List Form} (h : (Node.arrayExpression elements).forms scope context = .ok forms) :
    ∃ form items, forms = [form] ∧
      List.Forall₂ (fun element item => (Visit.forms scope).one element.elementNode = .ok item)
        elements items ∧
      (∀ values : List (Value α), SpreadsArrays elements values →
        ∃ value, (∀ v, Evaluates form (items.zip values) v ↔ v = value) ∧
          (value = literalValue (elements.zip values) ↔
            KeepsBrackets false (elements.zip values))) ∧
      ((∀ values : List (Value α), SpreadsArrays elements values →
          Evaluates form (items.zip values) (literalValue (elements.zip values))) ↔
        ∀ front element back, elements = front ++ element :: back → front.any isSpread →
          element.isSpread) := by
  rw [forms_eq, step] at h
  obtain ⟨form, hform, h⟩ := bind_eq_ok.1 h
  obtain ⟨parts, hparts, hform⟩ := bind_eq_ok.1 hform
  obtain rfl := Except.ok.inj h
  obtain rfl := Except.ok.inj hform
  obtain ⟨items, hitems, hbuilt⟩ := evaluates_foldlM (α := α) hparts
  have hvalue : ∀ values : List (Value α), SpreadsArrays elements values →
      Evaluates parts.form (items.zip values) (.array (builtItems false (elements.zip values))) ∧
      ∀ pair ∈ elements.zip values, pair.1.isSpread → pair.2.isArray := by
    intro values hvalues
    refine ⟨hbuilt values [] [] hvalues.length_eq.symm (.hostArray []), ?_⟩
    exact fun pair hm => List.forall₂_zip hvalues hm
  have hiff : ∀ values : List (Value α), SpreadsArrays elements values →
      (.array (builtItems false (elements.zip values)) = literalValue (elements.zip values) ↔
        KeepsBrackets false (elements.zip values)) := by
    intro values hvalues
    rw [literalValue, Value.array.injEq, builtItems_eq_iff (hvalue values hvalues).2]
  refine ⟨parts.form, items, rfl, hitems, fun values hvalues => ?_, ?_⟩
  · obtain ⟨heval, -⟩ := hvalue values hvalues
    exact ⟨_, fun v => ⟨heval.unique, fun hv => hv ▸ heval⟩, hiff values hvalues⟩
  · rw [← forall_keepsBrackets_iff (α := α)]
    refine forall₂_congr fun values hvalues => ?_
    rw [← hiff values hvalues]
    obtain ⟨heval, -⟩ := hvalue values hvalues
    exact ⟨fun h => (heval.unique h).symm, fun h => h ▸ heval⟩

/-- The elements of `[1, ...x, y]`. -/
def spreadElements : List Node :=
  [.numericLiteral "1", .spreadElement (.identifier "x"), .identifier "y"]

/-- The form of `[1, ...x, y]`. -/
def spreadForm : Form :=
  .call ".concat" [.hostArray [.number "1"], .symbol "x", .symbol "y"]

/-- If `x` is `["a", ["b"]]` and `y` is `"c"`, then `[1, ...x, y]` keeps its value. -/
theorem forms_spreadElements :
    (Node.arrayExpression spreadElements).forms (fun _ => false) = .ok [spreadForm] ∧
      Evaluates spreadForm
        [(.number "1", .other "1"), (.symbol "x", .array [.other "a", .array [.other "b"]]),
          (.symbol "y", .other "c")]
        (.array [.other "1", .other "a", .array [.other "b"], .other "c"]) := by
  have hforms : (Node.arrayExpression spreadElements).forms (fun _ => false) .value =
      .ok [spreadForm] := rfl
  have hvalues : SpreadsArrays spreadElements
      [.other "1", .array [.other "a", .array [.other "b"]], .other "c"] :=
    .cons (by simp [isSpread]) (.cons (fun _ => rfl) (.cons (by simp [isSpread]) .nil))
  obtain ⟨form, items, hsingle, hitems, hvalue, -⟩ :=
    forms_arrayExpression_value_iff (α := String) _ spreadElements .value hforms
  obtain rfl : spreadForm = form := List.singleton_inj.1 hsingle
  obtain _ | ⟨h₁, _ | ⟨h₂, _ | ⟨h₃, _ | _⟩⟩⟩ := hitems
  cases h₁
  cases h₂
  cases h₃
  obtain ⟨value, heval, hkept⟩ := hvalue _ hvalues
  have hbrackets := (builtItems_eq_iff fun pair hm => List.forall₂_zip hvalues hm).1 rfl
  exact ⟨hforms, (heval _).2 (hkept.2 hbrackets).symm⟩

/-- In `[...x, [1]]` the inner array loses its brackets: with an empty `x`, the form has the value
`[1]` and the literal `[[1]]`. -/
theorem forms_spreadElements_spliced :
    ¬∀ (scope : Scope) (elements : List Node) (form : Form) (items : List Form)
        (values : List (Value String)),
      (Node.arrayExpression elements).forms scope = .ok [form] →
      List.Forall₂ (fun element item => (Visit.forms scope).one element.elementNode = .ok item)
        elements items →
      SpreadsArrays elements values →
      Evaluates form (items.zip values) (literalValue (elements.zip values)) := by
  intro hkept
  have hvalue := hkept (fun _ => false)
    [.spreadElement (.identifier "x"), .arrayExpression [.numericLiteral "1"]]
    (.call ".concat" [.hostArray [], .symbol "x", .hostArray [.number "1"]])
    [.symbol "x", .hostArray [.number "1"]] [.array [], .array [.other "1"]] rfl
    (.cons rfl (.cons rfl .nil)) (.cons (fun _ => rfl) (.cons (fun _ => rfl) .nil))
  have hbuilt : Evaluates (.call ".concat" [.hostArray [], .symbol "x", .hostArray [.number "1"]])
      [(.symbol "x", .array []), (.hostArray [.number "1"], .array [.other "1"])]
      (.array [.other "1"]) :=
    .concat [(.symbol "x", .array []), (.hostArray [.number "1"], .array [.other "1"])]
      (.hostArray [])
  have hsame := hbuilt.unique hvalue
  simp [literalValue, literalItems, isSpread, Value.items] at hsame

end Node

end ScriptForms
