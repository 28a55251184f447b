import Mathlib.Data.List.Basic
import ScriptForms.Json.Decode

/-!
# The value of a document

The fields of an object have no order: as a value, an object is a function from names to values. A
tree that is built from the fields by name depends on the value of a document only.

* `Json.Value`, `Json.value`: the value of a document.
* `Json.induction_on`: induction over documents.
* `Fields.ByName`: what is built from the fields of an object by name.
* `Json.read_congr`: documents with the same value are read as the same tree.
-/

namespace ScriptForms

namespace Json

/-! ### Values -/

/-- A value without numbers. The fields of an object have no order. -/
inductive Value where
  | null
  | bool (value : Bool)
  | str (value : String)
  | arr (items : List Value)
  | obj (field : String → Option Value)

mutual

/-- The value of a document. -/
def value : Json → Value
  | .null => .null
  | .bool value => .bool value
  | .str value => .str value
  | .arr items => .arr (values items)
  | .obj fields => .obj (valueOf fields)

/-- The values of several documents. -/
def values : List Json → List Value
  | [] => []
  | item :: items => value item :: values items

/-- The value of a field by its name. -/
def valueOf : List (String × Json) → String → Option Value
  | [], _ => none
  | (key, field) :: fields, name => if name = key then some (value field) else valueOf fields name

end

theorem valueOf_eq (fields : List (String × Json)) (name : String) :
    valueOf fields name = (fields.lookup name).map value := by
  induction fields with
  | nil => simp [valueOf]
  | cons field fields ih =>
    rw [valueOf, ih, List.lookup_cons]
    by_cases h : name = field.1
    · simp [h]
    · simp [h, beq_false_of_ne h]

/-- Induction over documents: from the items of an array to the array, and from the fields of an
object to the object. -/
theorem induction_on {motive : Json → Prop} (null : motive .null)
    (bool : ∀ value, motive (.bool value)) (str : ∀ value, motive (.str value))
    (arr : ∀ items, (∀ item ∈ items, motive item) → motive (.arr items))
    (obj : ∀ fields : List (String × Json), (∀ field ∈ fields, motive field.2) →
      motive (.obj fields)) (document : Json) : motive document :=
  @Json.rec motive (fun items => ∀ item ∈ items, motive item)
    (fun fields => ∀ field ∈ fields, motive field.2) (fun field => motive field.2)
    null bool str arr obj (fun _ h => nomatch h)
    (fun _ _ hitem hitems => List.forall_mem_cons.2 ⟨hitem, hitems⟩) (fun _ h => nomatch h)
    (fun _ _ hfield hfields => List.forall_mem_cons.2 ⟨hfield, hfields⟩) (fun _ _ h => h) document

end Json

/-! ### Reading by name -/

/-- What is built from the fields of an object by name, whatever their order. -/
def Fields.ByName {α : Type} (build : Fields α → Option α) : Prop :=
  ∀ fields others : Fields α, (∀ name, fields.get name = others.get name) →
    build fields = build others

namespace Json

variable {α : Type} {build : Fields α → Option α}

theorem lookup_readFields (fields : List (String × Json)) (name : String) :
    (readFields build fields).lookup name = (fields.lookup name).map (read build) := by
  induction fields with
  | nil => simp [readFields]
  | cons field fields ih =>
    rw [readFields, List.lookup_cons, List.lookup_cons, ih]
    split <;> rfl

/-- The items of an array are read alike if each of them is. -/
theorem readItems_congr {items others : List Json}
    (ih : ∀ item ∈ items, ∀ other : Json, item.value = other.value →
      item.read build = other.read build)
    (h : values items = values others) : readItems build items = readItems build others := by
  induction items generalizing others with
  | nil =>
    cases others with
    | nil => rfl
    | cons other others => simp [values] at h
  | cons item items ihItems =>
    cases others with
    | nil => simp [values] at h
    | cons other others =>
      rw [List.forall_mem_cons] at ih
      simp only [values, List.cons.injEq] at h
      rw [readItems, readItems, ih.1 other h.1, ihItems ih.2 h.2]

/-- The fields of an object are read alike by name if each of them is. -/
theorem get_readFields_congr {fields others : List (String × Json)}
    (ih : ∀ field ∈ fields, ∀ other : Json, field.2.value = other.value →
      field.2.read build = other.read build)
    (h : valueOf fields = valueOf others) (name : String) :
    Fields.get (readFields build fields) name = Fields.get (readFields build others) name := by
  have hname := congrFun h name
  rw [valueOf_eq, valueOf_eq] at hname
  rw [Fields.get, Fields.get, lookup_readFields, lookup_readFields]
  cases hfirst : fields.lookup name with
  | none =>
    rw [hfirst, Option.map_none] at hname
    rw [Option.map_eq_none_iff.1 hname.symm]
  | some field =>
    rw [hfirst, Option.map_some] at hname
    obtain ⟨other, hsecond, hvalue⟩ := Option.map_eq_some_iff.1 hname.symm
    have hmem : (name, field) ∈ fields := by
      obtain ⟨front, back, rfl, -⟩ := List.lookup_eq_some_iff.1 hfirst
      simp
    rw [hsecond, Option.map_some, Option.map_some, ih _ hmem other hvalue.symm]

/-- Documents with the same value are read as the same tree. -/
theorem read_congr (hbuild : Fields.ByName build) {document other : Json}
    (h : document.value = other.value) : document.read build = other.read build := by
  induction document using induction_on generalizing other with
  | null | bool value | str value => cases other <;> simp_all [Json.value, read]
  | arr items ih =>
    cases other with
    | arr others =>
      rw [read, read, readItems_congr ih (Value.arr.inj h)]
    | _ => simp [Json.value] at h
  | obj fields ih =>
    cases other with
    | obj others =>
      rw [read, read, hbuild _ _ (get_readFields_congr ih (Value.obj.inj h))]
    | _ => simp [Json.value] at h

end Json

end ScriptForms
