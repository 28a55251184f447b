import ScriptForms.Proofs.Gauge.Count

/-!
# Names of the host environment

A name is written as one of the host environment, `js/name`, if the scope knows it and it stands for
an object or a function: as the object of an access, as the callee of a call or as a constructor.
Nothing else decides it. The rules also write a few such names of their own accord.

* `Node.checks`: whether a tree has such a name where the scope is asked about it.
* `Node.Readable`: the trees whose own words cannot be mistaken for such names.
* `Node.mentions_forms`, `Node.mentions_toProgram`: the forms of a tree mention what the tree
  checks.
-/

namespace ScriptForms

open Form

namespace Node

/-! ### Checked names -/

/-- The node below a node whose name the scope is asked about. -/
def checked? : Node → Option Node
  | .memberExpression object _ _ => some object
  | .callExpression callee _ | .newExpression callee _ => some callee
  | _ => none

variable (scope : Scope) (name : String)

/-- Whether a node is the name, and the scope knows it. -/
def isHost : Node → Bool
  | .identifier text => text == name && scope text && !reservedHosts.contains text
  | _ => false

/-- Whether a tree has the name where the scope is asked about it, and the scope knows it. -/
def checks (node : Node) : Bool := node.keptNodes.any fun m => m.checked?.any (isHost scope name)

/-! ### Readable trees -/

/-- A grammatical tree with names and operators of the language, none of which reads as a name of
the host environment, and with at most one default clause in each `switch`. -/
structure Readable (node : Node) : Prop where
  grammatical : node.Grammatical
  worded : ∀ m ∈ node.subtrees, m.isWorded
  words : ∀ m ∈ node.subtrees, ∀ word ∈ m.words, hosted? word = none
  defaults : ∀ m ∈ node.subtrees, ¬m.hasRivalDefaults

variable {node : Node}

theorem Readable.subtree (h : node.Readable) {m : Node} (hm : m ∈ node.subtrees) : m.Readable where
  grammatical := h.grammatical.subtree hm
  worded := fun k hk => h.worded k (mem_subtrees_trans hk hm)
  words := fun k hk => h.words k (mem_subtrees_trans hk hm)
  defaults := fun k hk => h.defaults k (mem_subtrees_trans hk hm)

/-! ### What is mentioned -/

variable {scope name} {form : Form} {forms : List Form}

theorem Readable.covers (h : node.Readable) : (Gauge.mentioning scope name).Covers node :=
  ⟨h.grammatical, fun m hm => ⟨h.worded m hm, h.words m hm, h.defaults m hm⟩⟩

theorem hostOf_mentioning (node : Node) :
    (Gauge.mentioning scope name).hostOf node = 0 ↔ node.isHost scope name = false := by
  cases node with
  | identifier text =>
    simp only [Gauge.hostOf, Gauge.mentioning, isHost]
    by_cases hscope : scope text <;> by_cases hname : text = name <;> simp [hscope, hname]
  | _ => exact iff_of_true rfl rfl

/-- A node counts iff the scope is asked about the name at the node. -/
theorem own_mentioning (node : Node) : (Gauge.mentioning scope name).own node = 0 ↔
    node.checked?.any (isHost scope name) = false := by
  cases node with
  | memberExpression object | callExpression callee | newExpression callee =>
    exact hostOf_mentioning _
  | _ => exact iff_of_true rfl rfl

/-- The count of a tree is not zero iff the tree checks the name. -/
theorem tally_mentioning (scope : Scope) (name : String) (node : Node) :
    (Gauge.mentioning scope name).tally node = 0 ↔ node.checks scope name = false := by
  rw [Gauge.tally_of_keyed rfl, List.sum_eq_zero_iff_forall_eq_nat, checks, List.any_eq_false,
    List.forall_mem_map]
  refine forall₂_congr fun m _ => ?_
  rw [own_mentioning, Bool.not_eq_true]

/-- The forms of a tree mention a name iff the tree checks it. -/
theorem mentions_forms (h : node.Readable) (hf : node.forms scope .body = .ok forms)
    (name : String) : (∃ form ∈ forms, form.mentions name) ↔ node.checks scope name := by
  have hforms := (Rule.convert_weighs (Gauge.mentioning scope name) node.size).forms h.covers
    (show Context.asks .body = false from rfl) forms hf
  have hrel : (forms.map (mentionCount name)).sum = 0 ↔ node.checks scope name = false :=
    hforms.rel.trans (tally_mentioning scope name node)
  rw [← not_iff_not, Bool.not_eq_true, ← hrel, List.sum_eq_zero_iff_forall_eq_nat,
    List.forall_mem_map]
  simp only [mentions_iff_mentionCount, not_exists, not_and, not_not]

/-- The program of a script mentions a name iff the script checks it. -/
theorem mentions_toProgram (h : node.Readable) (hp : node.isProgram)
    (hf : node.toProgram scope = .ok form) (name : String) :
    form.mentions name ↔ node.checks scope name := by
  have hrel := (Gauge.mentioning scope name).rel_toProgram h.covers hp form hf
  rw [mentions_iff_mentionCount, ← not_iff_not, not_not, Bool.not_eq_true, ← tally_mentioning]
  exact hrel

end Node

end ScriptForms
