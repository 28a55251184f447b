import Mathlib.Algebra.FreeMonoid.Basic
import ScriptForms.Proofs.Gauge.Convert

/-!
# Literals in order

Numbers and regular expressions go into the forms as they are written. Since every expression can
carry one, they tell of each expression whether it is emitted, how often, and where. The form of a
script without switches and compound assignments holds the literals of the script, each once and in
the order of the source.

* `Form.literals`: the literals of a form, from left to right.
* `Node.literals`: the literals of a tree in the order of the source, the keys of objects left out.
* `Gauge.literals`: measures both by the list of the literals.
* `Node.toProgram_literals`: the literals of the form of a script.
-/

namespace ScriptForms

namespace Form

/-- The literals of a form, from left to right. -/
def literals (form : Form) : List Literal := form.subforms.filterMap literal?

theorem literals_eq (form : Form) :
    form.literals = form.literal?.toList ++ form.parts.flatMap literals := by
  rw [literals, subforms_eq, List.filterMap_cons, descendants, List.filterMap_flatMap]
  cases form.literal? <;> rfl

/-- A form that is no literal has the literals of its parts. -/
theorem ofList_literals {form : Form} (h : form.literal? = none) :
    FreeAddMonoid.ofList form.literals =
      (form.parts.map fun part => FreeAddMonoid.ofList part.literals).sum := by
  apply FreeAddMonoid.toList.injective
  rw [literals_eq, h, FreeAddMonoid.toList_sum, List.map_map]
  rfl

end Form

namespace Node

/-! ### The literals of a tree -/

/-- The literal that a node is. -/
def literal? : Node → Option Literal
  | .numericLiteral raw => some (.number raw)
  | .regExpLiteral pattern flags => some (.regex pattern flags)
  | _ => none

/-- The children of a node but for the key of a member of an object. -/
def evaluated : Node → List Node
  | .objectProperty _ value _ _ => [value]
  | .objectMethod _ _ params body _ => params ++ [body]
  | node => node.children

/-- The literals of a tree down to a depth. -/
def literalsTo : (depth : Nat) → Node → List Literal
  | 0, _ => []
  | depth + 1, node => node.literal?.toList ++ node.evaluated.flatMap (literalsTo depth)

/-- The literals of a tree in the order of the source. No path down a tree is longer than the size
of the tree. -/
def literals (node : Node) : List Literal := literalsTo node.size node

theorem mem_children_of_mem_evaluated {child node : Node} (h : child ∈ node.evaluated) :
    child ∈ node.children := by
  unfold evaluated at h
  split at h <;> simp_all [children]

theorem literalsTo_eq_literalsTo {node : Node} {d e : Nat} (hd : node.size ≤ d)
    (he : node.size ≤ e) : literalsTo d node = literalsTo e node := by
  refine depth_congr (fun d e node h => ?_) hd he
  rw [literalsTo, literalsTo]
  congr 1
  exact List.flatMap_congr fun child hc =>
    h child (size_of_child (mem_children_of_mem_evaluated hc))

theorem literals_eq (node : Node) :
    node.literals = node.literal?.toList ++ node.evaluated.flatMap literals := by
  rw [literals, literalsTo_eq_literalsTo (Nat.le_refl _) (Nat.le_succ _), literalsTo]
  congr 1
  refine List.flatMap_congr fun child hc => ?_
  have := size_of_child (mem_children_of_mem_evaluated hc)
  exact literalsTo_eq_literalsTo (Nat.le_of_lt this) (Nat.le_refl _)

/-! ### Plain trees -/

/-- Whether a node neither moves nor repeats what it holds: it is no switch and no compound
assignment. -/
def isPlain : Node → Bool
  | .switchStatement .. => false
  | .assignmentExpression operator _ _ => operator = "="
  | _ => true

end Node

open Node

/-- Measures forms and trees by the list of their literals. The keys of objects are left out, since
they are no literals in the forms. -/
def Gauge.literals (scope : Scope) : Gauge (FreeAddMonoid Literal) where
  scope := scope
  Admits := fun node => node.isPlain
  Heads := fun _ => True
  Rel := Eq
  weight := fun form => .ofList form.literals
  name := fun _ => 0
  host := fun _ => 0
  this := 0
  literal := .of
  keyed := false
  zero := rfl
  add := fun h h' => by rw [h, h']
  name_comm := fun _ _ => by simp
  host_comm := fun _ _ => by simp
  this_comm := fun _ => by simp
  reorder := fun hadmits => absurd hadmits (by simp [isPlain])
  idle := fun h => by rw [h, add_zero]
  rival := fun hadmits => absurd hadmits (by simp [isPlain])
  echo := fun h => (add_zero _).trans h
  echo_name := fun _ h => (add_zero _).trans h
  again := fun hadmits hne => absurd hadmits (by simpa [isPlain] using hne)
  access := fun _ _ _ => rfl
  receiver := fun _ => ⟨rfl, rfl⟩
  symbol := fun _ _ => rfl
  hosted := fun _ _ => rfl
  plain := fun _ => rfl
  word := fun _ _ => ⟨rfl, trivial⟩
  head := fun _ => trivial
  identifier := fun _ => trivial
  written := fun l => by cases l <;> rfl
  key := fun _ hkeyed => by cases hkeyed
  compound := fun _ hliteral _ => Form.ofList_literals hliteral
  list := fun _ => Form.ofList_literals rfl
  capture := by
    intro text form inner outer _ hcount hform
    rw [add_zero, add_zero] at hcount
    have hlist : FreeAddMonoid.ofList (Form.literals (.thisAs text form)) =
        .ofList form.literals := by
      simp [Form.thisAs, Form.call, Form.literals_eq, Form.literal?, Form.parts]
    rw [hlist, hform, hcount]

namespace Node

variable {node : Node}

theorem below_literals (scope : Scope) (h : node.isPlain) :
    (Gauge.literals scope).below node = node.evaluated := by
  cases node with
  | switchStatement discriminant cases => cases h
  | _ => rfl

theorem own_literals (scope : Scope) (node : Node) :
    ((Gauge.literals scope).own node).toList = node.literal?.toList := by
  have hhost : ∀ m, (Gauge.literals scope).hostOf m = 0 := by
    intro m
    unfold Gauge.hostOf
    split
    · exact ite_self 0
    · rfl
  cases node with
  | memberExpression object | callExpression callee | newExpression callee =>
    rw [Gauge.own, hhost]
    rfl
  | _ => rfl

/-- The measure of a plain tree is the list of its literals. -/
theorem tally_literals (scope : Scope) (h : ∀ m ∈ node.subtrees, m.isPlain) :
    ((Gauge.literals scope).tally node).toList = node.literals := by
  induction hn : node.size using Nat.strongRecOn generalizing node with
  | _ n ih =>
    have hplain : node.isPlain := h node (mem_subtrees_self node)
    rw [Gauge.tally_eq, below_literals scope hplain, literals_eq, FreeAddMonoid.toList_add,
      own_literals, Gauge.tallies, FreeAddMonoid.toList_sum, List.map_map, ← List.flatMap_def]
    congr 1
    refine List.flatMap_congr fun child hc => ?_
    have hchild := mem_children_of_mem_evaluated hc
    exact ih child.size (hn ▸ size_of_child hchild)
      (fun m hm => h m (mem_subtrees_trans hm
        (mem_subtrees_of_mem_descendants (mem_descendants_of_mem_children hchild)))) rfl

/-- The form of a script without switches and compound assignments holds the numbers and regular
expressions of the script, each once and in the order of the source. -/
theorem toProgram_literals (node : Node) (h : node.IsScript) (hp : ∀ m ∈ node.subtrees, m.isPlain)
    (scope : Scope) (form : Form) (hf : node.toProgram scope = .ok form) :
    form.literals = node.literals := by
  have hcovers : (Gauge.literals scope).Covers node := ⟨h.2, hp⟩
  have hrel : FreeAddMonoid.ofList form.literals = (Gauge.literals scope).tally node :=
    (Gauge.literals scope).rel_toProgram hcovers h.1 form hf
  rw [← tally_literals scope hp, ← hrel]
  rfl

/-- The script `f(1).g(/a/).h({ 2: [3, ...b, 4] })`: a chain of calls, a key that is a number, and a
spread. -/
def chainScript : Node :=
  .program [.expressionStatement (.callExpression (.memberExpression (.callExpression
    (.memberExpression (.callExpression (.identifier "f") [.numericLiteral "1"])
      (.identifier "g") false) [.regExpLiteral "a" ""]) (.identifier "h") false)
    [.objectExpression [.objectProperty (.numericLiteral "2") (.arrayExpression
      [.numericLiteral "3", .spreadElement (.identifier "b"), .numericLiteral "4"]) false false]])
    []]

/-- The form of `chainScript`. -/
def chainForm : Form :=
  .program [.call "->" [.list [.symbol "f", .number "1"], .list [.symbol ".g", .regex "a" ""],
    .list [.symbol ".h", .hostObject [.mapEntry (.keyword "2") (.call ".concat"
      [.hostArray [.number "3"], .symbol "b", .number "4"])]]]]

theorem toProgram_chainScript :
    (chainScript.IsScript ∧ (∀ m ∈ chainScript.subtrees, m.isPlain) ∧
      chainScript.toProgram (fun _ => false) = .ok chainForm) ∧
      chainForm.literals = chainScript.literals ∧
      chainScript.literals = [.number "1", .regex "a" "", .number "3", .number "4"] := by
  have hscript : chainScript.IsScript := ⟨rfl, by unfold Grammatical; decide⟩
  have hplain : ∀ m ∈ chainScript.subtrees, m.isPlain := by decide
  have hform : chainScript.toProgram (fun _ => false) = .ok chainForm := rfl
  exact ⟨⟨hscript, hplain, hform⟩, toProgram_literals _ hscript hplain _ _ hform, rfl⟩

end Node

end ScriptForms
