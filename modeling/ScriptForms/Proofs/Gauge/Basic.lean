import Mathlib.Algebra.BigOperators.Group.List.Basic
import ScriptForms.Proofs.Conversion
import ScriptForms.Proofs.Form.Subform
import ScriptForms.Proofs.Form.Word
import ScriptForms.Proofs.Node.Kept
import ScriptForms.Proofs.Outcome

/-!
# Measuring trees and forms

Some properties of a conversion are matters of measuring: what is measured in the forms of a tree
compares in some way to what is measured in the tree. A measure adds up what stands in a form or in
a tree, from left to right. It can be the number of certain symbols, or the list of the literals.

A `Gauge` says what is measured on the two sides and how the measures compare. In a tree these are
names, `this`, literals, and names that the scope is asked about. In a form they are symbols and
literals; a list that binds the receiver may be measured in a way of its own, and any other form has
the measures of its parts.

* `Gauge`: what is measured, and what the rules rely on.
* `Gauge.tally`: the measure of a tree.
* `Gauge.Covers`: the trees that a gauge is about.
* `Rule.Weighs`: conversions whose forms compare to the trees as the gauge says.
-/

namespace ScriptForms

open Node Form

/-! ### What is measured -/

/-- A number or a regular expression. -/
inductive Literal where
  | number (raw : String)
  | regex (pattern flags : String)
  deriving DecidableEq

/-- The form of a literal. -/
def Literal.form : Literal → Form
  | .number raw => .number raw
  | .regex pattern flags => .regex pattern flags

/-- The literal that a form is. -/
def Form.literal? : Form → Option Literal
  | .number raw => some (.number raw)
  | .regex pattern flags => some (.regex pattern flags)
  | _ => none

namespace Node

/-- The name that a node refers to or binds. -/
def ownName? : Node → Option String
  | .identifier name | .importSpecifier _ name | .importDefaultSpecifier name
  | .importNamespaceSpecifier name | .exportSpecifier name _ => some name
  | _ => none

/-- Whether a node is an assignment that reads its target. -/
def isCompoundAssignment : Node → Bool
  | .assignmentExpression operator _ _ => operator ≠ "="
  | _ => false

/-- Whether a node is a `switch` with more than one default clause. -/
def hasRivalDefaults : Node → Bool
  | .switchStatement _ cases => 1 < cases.countP isDefaultClause
  | _ => false

end Node

/-- Whether the scope is asked about a name in this place. -/
def Context.asks (context : Context) : Bool :=
  context.checkGlobal && decide (context.naming = .plain)

/-! ### Gauges -/

/-- What is measured in forms and in trees, and how the measures compare. -/
structure Gauge (M : Type) [AddMonoid M] where
  /-- The names of the host environment. -/
  scope : Scope
  /-- The nodes that a tree may have. -/
  Admits : Node → Prop
  /-- The symbols that stand at the head of a list as any other form does. -/
  Heads : String → Prop
  /-- How the measure of forms compares to the measure of their trees. -/
  Rel : M → M → Prop
  /-- The measure of a form. -/
  weight : Form → M
  /-- The measure of a name in a tree. -/
  name : String → M
  /-- What a name measures besides if it is written as one of the host environment. -/
  host : String → M
  /-- The measure of `this` in a tree. -/
  this : M
  /-- The measure of a literal in a tree. -/
  literal : Literal → M
  /-- Whether the keys of objects are measured. -/
  keyed : Bool
  zero : Rel 0 0
  add {a b c d : M} : Rel a b → Rel c d → Rel (a + c) (b + d)
  -- Only literals need be measured in their order.
  name_comm (text : String) (m : M) : name text + m = m + name text
  host_comm (text : String) (m : M) : host text + m = m + host text
  this_comm (m : M) : this + m = m + this
  reorder {discriminant : Node} {cases : List Node} :
    Admits (.switchStatement discriminant cases) → ∀ a b : M, a + b = b + a
  -- The names of properties are left out, and so are default clauses but for one.
  idle {text : String} {a b : M} : Rel a b → Rel a (b + name text)
  rival {discriminant : Node} {cases : List Node} {a b c : M} :
    Admits (.switchStatement discriminant cases) → 1 < cases.countP isDefaultClause →
    Rel a b → Rel a (b + c)
  -- Exported names and the places of compound assignments are repeated.
  echo {text : String} {a b c : M} : Rel (a + (weight (.symbol text) + c)) b →
    Rel (a + (weight (.symbol text) + c) + weight (.symbol text)) b
  echo_name {text : String} {a b : M} : Rel (weight (.symbol text)) (name text) →
    Rel a (name text + b) → Rel (a + weight (.symbol text)) (name text + b)
  again {operator : String} {left right : Node} {a b c : M} :
    Admits (.assignmentExpression operator left right) → operator ≠ "=" →
    Rel (a + c) b → Rel (a + (a + c)) b
  -- A name of the receiver can take the place of `this` in a chain of accesses.
  access (object property : Node) (computed : Bool) :
    Admits (.memberExpression object property computed)
  receiver {text : String} : text ∈ [Rule.receiver, Rule.placeReceiver] →
    Admits (.identifier text) ∧ host text = 0
  -- The symbols and literals of a form are those of its tree, or words that the rules write.
  symbol {node : Node} {text : String} : Admits node → text ∈ node.ownName? →
    Rel (weight (.symbol text)) (name text)
  hosted {text : String} : Admits (.identifier text) → scope text →
    Rel (weight (.symbol (hostName text))) (name text + host text)
  plain {text : String} : IsPlainWord text → weight (.symbol text) = 0
  word {node : Node} {text : String} : Admits node → text ∈ node.ruleWord? →
    weight (.symbol text) = 0 ∧ Heads text
  head {text : String} : text ≠ captureHead → Heads text
  identifier {text : String} : Admits (.identifier text) → Heads text
  written (l : Literal) : Rel (weight l.form) (literal l)
  key (l : Literal) : keyed → literal l = 0
  -- Any other form has the measures of its parts, unless it binds the receiver.
  compound {form : Form} : form.symbol? = none → form.literal? = none →
    (∀ children, form ≠ .list children) → weight form = (form.parts.map weight).sum
  list {forms : List Form} : (∀ form ∈ forms.head?, ∀ text ∈ form.symbol?, Heads text) →
    weight (.list forms) = (forms.map weight).sum
  capture {text : String} {form : Form} {inner outer : M} :
    text ∈ [Rule.receiver, Rule.placeReceiver] → inner + this = outer + name text →
    Rel (weight form) inner → Rel (weight (.thisAs text form)) outer

namespace Gauge

variable {M : Type} [AddMonoid M] (g : Gauge M)

/-- The measure of several forms. -/
def weights (forms : List Form) : M := (forms.map g.weight).sum

@[simp] theorem weights_nil : g.weights [] = 0 := rfl

@[simp] theorem weights_cons (form : Form) (forms : List Form) :
    g.weights (form :: forms) = g.weight form + g.weights forms := by
  simp [weights]

@[simp] theorem weights_append (forms others : List Form) :
    g.weights (forms ++ others) = g.weights forms + g.weights others := by
  simp [weights]

theorem weights_flatten (lists : List (List Form)) :
    g.weights lists.flatten = (lists.map g.weights).sum := by
  induction lists with
  | nil => rfl
  | cons forms lists ih => rw [List.flatten_cons, weights_append, ih, List.map_cons, List.sum_cons]

/-! ### The measures of forms -/

/-- A form without parts that is no symbol and no literal. -/
theorem weight_atom {form : Form} (hs : form.symbol? = none) (hn : form.literal? = none)
    (hp : form.parts = []) (hl : ∀ children, form ≠ .list children) : g.weight form = 0 := by
  rw [g.compound hs hn hl, hp]
  rfl

@[simp] theorem weight_keyword (text : String) : g.weight (.keyword text) = 0 :=
  g.weight_atom rfl rfl rfl (by simp)

@[simp] theorem weight_string (text : String) : g.weight (.string text) = 0 :=
  g.weight_atom rfl rfl rfl (by simp)

@[simp] theorem weight_boolean (value : Bool) : g.weight (.boolean value) = 0 :=
  g.weight_atom rfl rfl rfl (by simp)

@[simp] theorem weight_comment (text : String) : g.weight (.comment text) = 0 :=
  g.weight_atom rfl rfl rfl (by simp)

@[simp] theorem weight_vector (forms : List Form) : g.weight (.vector forms) = g.weights forms :=
  g.compound rfl rfl (by simp)

@[simp] theorem weight_hashMap (forms : List Form) : g.weight (.hashMap forms) = g.weights forms :=
  g.compound rfl rfl (by simp)

@[simp] theorem weight_program (forms : List Form) : g.weight (.program forms) = g.weights forms :=
  g.compound rfl rfl (by simp)

@[simp] theorem weight_mapEntry (key value : Form) :
    g.weight (.mapEntry key value) = g.weight key + g.weight value := by
  rw [g.compound rfl rfl (by simp)]
  simp [parts]

@[simp] theorem weight_tagged (tag : String) (form : Form) :
    g.weight (.tagged tag form) = g.weight form := by
  rw [g.compound rfl rfl (by simp)]
  simp [parts]

@[simp] theorem weight_hostArray (items : List Form) :
    g.weight (.hostArray items) = g.weights items := by
  simp [hostArray]

@[simp] theorem weight_hostObject (entries : List Form) :
    g.weight (.hostObject entries) = g.weights entries := by
  simp [hostObject]

theorem weight_of_isMarker {form : Form} (h : form.isMarker) : g.weight form = 0 := by
  cases form with
  | empty | leave => exact g.weight_atom rfl rfl rfl (by simp)
  | _ => cases h

/-- Markers measure nothing. -/
theorem weights_filter (forms : List Form) :
    g.weights (forms.filter fun form => !form.isMarker) = g.weights forms := by
  induction forms with
  | nil => rfl
  | cons form forms ih =>
    rw [List.filter_cons]
    split
    · rw [weights_cons, weights_cons, ih]
    · rename_i hmarker
      rw [ih, weights_cons, g.weight_of_isMarker (by simpa using hmarker), zero_add]

@[simp] theorem weight_nil : g.weight .nil = 0 := g.plain (by decide)

/-- A form that stands at the head of a list as any other form does. -/
def IsHead (form : Form) : Prop := ∀ text ∈ form.symbol?, g.Heads text

variable {g} in
theorem isHead_of_symbol?_eq_none {form : Form} (h : form.symbol? = none) : g.IsHead form := by
  simp [IsHead, h]

theorem isHead_symbol {text : String} (h : text ≠ captureHead) : g.IsHead (.symbol text) := by
  simpa [IsHead, symbol?] using g.head h

/-- A word that measures nothing and can stand at the head of a list. -/
def IsIdle (text : String) : Prop := g.weight (.symbol text) = 0 ∧ g.Heads text

variable {g} in
theorem isIdle_of_isPlainWord {text : String} (h : IsPlainWord text) : g.IsIdle text :=
  ⟨g.plain h, g.head (ne_captureHead_of_not_mem h.1)⟩

theorem weight_idleCall {head : String} (h : g.IsIdle head) (args : List Form) :
    g.weight (.call head args) = g.weights args := by
  have hlist : g.weight (.call head args) = g.weights (.symbol head :: args) :=
    g.list (by simpa [symbol?] using h.2)
  rw [hlist, weights_cons, h.1, zero_add]

theorem weight_call {head : String} (h : IsPlainWord head) (args : List Form) :
    g.weight (.call head args) = g.weights args :=
  g.weight_idleCall (isIdle_of_isPlainWord h) args

theorem weight_sequence (forms : List Form) : g.weight (.sequence forms) = g.weights forms := by
  unfold Form.sequence
  split
  · simp
  · exact g.weight_call (by decide) forms

/-! ### The measures of trees -/

/-- What a name measures where the scope is asked about it and knows it. -/
def hostOf : Node → M
  | .identifier text => if g.scope text then g.host text else 0
  | _ => 0

/-- What a node measures besides in a place where the scope is asked about names. -/
def asking (context : Context) (node : Node) : M := if context.asks then g.hostOf node else 0

/-- The measure of a node without the nodes below it. -/
def own : Node → M
  | .identifier text | .importSpecifier _ text | .importDefaultSpecifier text
  | .importNamespaceSpecifier text | .exportSpecifier text _ => g.name text
  | .thisExpression => g.this
  | .numericLiteral raw => g.literal (.number raw)
  | .regExpLiteral pattern flags => g.literal (.regex pattern flags)
  | .memberExpression object _ _ => g.hostOf object
  | .callExpression callee _ | .newExpression callee _ => g.hostOf callee
  | _ => 0

/-- The nodes below a node that are measured: those that are kept, the keys of objects only if the
gauge says so. -/
def below : Node → List Node
  | .objectProperty key value _ _ => (if g.keyed then [key] else []) ++ [value]
  | .objectMethod _ key params body _ => (if g.keyed then [key] else []) ++ (params ++ [body])
  | node => node.kept

/-- The measure of a tree down to a depth. -/
def tallyTo : (depth : Nat) → Node → M
  | 0, _ => 0
  | depth + 1, node => g.own node + ((g.below node).map (tallyTo depth)).sum

/-- The measure of a tree. No path down a tree is longer than the size of the tree. -/
def tally (node : Node) : M := g.tallyTo node.size node

/-- The measure of several trees. -/
def tallies (nodes : List Node) : M := (nodes.map g.tally).sum

@[simp] theorem tallies_nil : g.tallies [] = 0 := rfl

@[simp] theorem tallies_cons (node : Node) (nodes : List Node) :
    g.tallies (node :: nodes) = g.tally node + g.tallies nodes := by
  simp [tallies]

@[simp] theorem tallies_append (nodes others : List Node) :
    g.tallies (nodes ++ others) = g.tallies nodes + g.tallies others := by
  simp [tallies]

theorem mem_kept_of_mem_below {m node : Node} (h : m ∈ g.below node) : m ∈ node.kept := by
  cases hkeyed : g.keyed <;> unfold below at h <;> split at h <;> simp_all [kept, children]

theorem tallyTo_eq_tallyTo {node : Node} {d e : Nat} (hd : node.size ≤ d) (he : node.size ≤ e) :
    g.tallyTo d node = g.tallyTo e node := by
  refine depth_congr (fun d e node h => ?_) hd he
  rw [tallyTo, tallyTo]
  congr 2
  exact List.map_congr_left fun m hm => h m (size_of_kept (g.mem_kept_of_mem_below hm))

theorem tally_eq (node : Node) : g.tally node = g.own node + g.tallies (g.below node) := by
  rw [tally, tallyTo_eq_tallyTo g (Nat.le_refl _) (Nat.le_succ _), tallyTo, tallies]
  congr 2
  refine List.map_congr_left fun m hm => ?_
  have hsize := size_of_kept (g.mem_kept_of_mem_below hm)
  exact g.tallyTo_eq_tallyTo (Nat.le_of_lt hsize) (Nat.le_refl _)

/-- If keys are measured, the measure of a tree is that of the nodes that are kept. -/
theorem tally_of_keyed {g : Gauge M} (h : g.keyed = true) (node : Node) :
    g.tally node = (node.keptNodes.map g.own).sum := by
  have hbelow : ∀ node, g.below node = node.kept := by
    intro node
    unfold below
    split <;> simp [h, kept, children]
  induction hn : node.size using Nat.strongRecOn generalizing node with
  | _ n ih =>
    have hkept : ∀ nodes : List Node, (∀ m ∈ nodes, m.size < n) →
        g.tallies nodes = ((nodes.flatMap keptNodes).map g.own).sum := by
      intro nodes hsize
      induction nodes with
      | nil => rfl
      | cons node nodes ihs =>
        rw [List.forall_mem_cons] at hsize
        rw [tallies_cons, ih _ hsize.1 node rfl, ihs hsize.2]
        simp
    rw [tally_eq, keptNodes_eq, List.map_cons, List.sum_cons, hbelow,
      hkept _ fun m hm => hn ▸ size_of_kept hm]

/-- A node that measures nothing itself. -/
theorem tally_of_own {node : Node} (h : g.own node = 0) :
    g.tally node = g.tallies (g.below node) := by
  rw [tally_eq, h, zero_add]

theorem tally_of_single {child node : Node} (h : g.own node = 0) (hb : g.below node = [child]) :
    g.tally node = g.tally child := by
  rw [g.tally_of_own h, hb]
  simp

/-- A node without measured nodes below it. -/
theorem tally_of_below {node : Node} (h : g.below node = []) : g.tally node = g.own node := by
  rw [tally_eq, h, tallies_nil, add_zero]

@[simp] theorem tally_identifier (text : String) : g.tally (.identifier text) = g.name text :=
  g.tally_of_below rfl

theorem tally_comm_of_isIdentifier {node : Node} (h : node.isIdentifier) (m : M) :
    g.tally node + m = m + g.tally node := by
  cases node with
  | identifier text => rw [tally_identifier, g.name_comm]
  | _ => cases h

/-! ### Names that the scope is asked about -/

theorem hostOf_comm (node : Node) (m : M) : g.hostOf node + m = m + g.hostOf node := by
  unfold hostOf
  split
  · split
    · exact g.host_comm _ m
    · rw [zero_add, add_zero]
  · rw [zero_add, add_zero]

theorem hostOf_eq_zero (h : ∀ text, g.host text = 0) (node : Node) : g.hostOf node = 0 := by
  unfold hostOf
  split <;> simp [h]

theorem hostOf_of_not_isIdentifier {node : Node} (h : ¬node.isIdentifier) : g.hostOf node = 0 := by
  cases node with
  | identifier text => exact absurd rfl h
  | _ => rfl

theorem asking_of_not_asks {context : Context} (h : context.asks = false) (node : Node) :
    g.asking context node = 0 := by
  simp [asking, h]

/-- The measure of a tree in the place of an object or a function. -/
def reached (node : Node) : M := g.tally node + g.hostOf node

/-- A node that has the scope asked about the first node below it. -/
theorem tally_of_own_eq_hostOf {first node : Node} {others : List Node}
    (ho : g.own node = g.hostOf first) (hb : g.below node = first :: others) :
    g.tally node = g.reached first + g.tallies others := by
  rw [tally_eq, ho, hb, tallies_cons, ← add_assoc, hostOf_comm, reached]

@[simp] theorem tally_memberExpression (object property : Node) (computed : Bool) :
    g.tally (.memberExpression object property computed) = g.reached object + g.tally property := by
  have hnode : g.below (.memberExpression object property computed) = [object, property] := rfl
  simpa using g.tally_of_own_eq_hostOf rfl hnode

theorem reached_memberExpression (object property : Node) (computed : Bool) :
    g.reached (.memberExpression object property computed) =
      g.reached object + g.tally property := by
  rw [reached, tally_memberExpression]
  exact add_zero _

@[simp] theorem tally_callExpression (callee : Node) (arguments : List Node) :
    g.tally (.callExpression callee arguments) = g.reached callee + g.tallies arguments :=
  g.tally_of_own_eq_hostOf rfl rfl

theorem tally_newExpression (callee : Node) (arguments : List Node) :
    g.tally (.newExpression callee arguments) = g.reached callee + g.tallies arguments :=
  g.tally_of_own_eq_hostOf rfl rfl

/-! ### Chains and branches -/

/-- The receiver of a chain of accesses measures what the name that takes its place does. -/
theorem reached_rebindReceiver {text : String} (ht : text ∈ [Rule.receiver, Rule.placeReceiver])
    {node : Node} (h : node.accessRoot.isThis) :
    g.reached (node.rebindReceiver text) + g.this = g.reached node + g.name text := by
  induction node using rebindReceiver.induct with
  | case1 =>
    have hthis : g.reached .thisExpression = g.this := by
      rw [reached, g.tally_of_below rfl]
      exact add_zero _
    have hname : g.reached (.identifier text) = g.name text := by
      simp [reached, hostOf, (g.receiver ht).2]
    rw [rebindReceiver, hthis, hname, g.this_comm]
  | case2 object property computed ih =>
    rw [rebindReceiver, reached_memberExpression, reached_memberExpression, add_assoc,
      ← g.this_comm, ← add_assoc, ih h, add_assoc, g.name_comm, add_assoc]
  | case3 node h₁ h₂ =>
    cases node <;> simp_all [accessRoot, isThis]

theorem reached_dotChain (node : Node) :
    g.reached node.dotChain.1 + g.tallies node.dotChain.2 = g.reached node := by
  induction node using dotChain.induct with
  | case1 object property target properties hd ih =>
    rw [dotChain, tallies_append, ← add_assoc, ih, reached_memberExpression]
    simp
  | case2 node h =>
    rw [dotChain]
    · simp
    · exact h

/-- The measure of a later call of a chain: its method and its arguments. -/
def stageTally (link : CallLink) : M :=
  match link.callee with
  | .memberExpression _ property _ => g.tally property + g.tallies link.arguments
  | _ => 0

/-- A chain of calls measures what its first call and its later stages do. -/
theorem tally_callChain {node : Node} {first : CallLink} {others : List CallLink}
    (h : node.callChain = first :: others) :
    g.tally (.callExpression first.callee first.arguments) + (others.map g.stageTally).sum =
      g.tally node := by
  refine callChain_induction (motive := fun node first others =>
    g.tally (.callExpression first.callee first.arguments) + (others.map g.stageTally).sum =
      g.tally node) (fun callee arguments => by simp)
    (fun callee inner property arguments first others ih => ?_) h
  -- The outer call adds a link with its method and its arguments.
  have hreached :
      g.reached (.callExpression callee inner) = g.tally (.callExpression callee inner) :=
    add_zero _
  rw [g.tally_callExpression (.memberExpression ..), reached_memberExpression, hreached, ← ih]
  simp [stageTally, add_assoc]

/-- The measure of a branch of a condition. -/
def branchTally (branch : Branch) : M := g.tallies branch.test.toList + g.tally branch.body

theorem tally_branches (node : Node) : (node.branches.map g.branchTally).sum = g.tally node := by
  refine branches_induction
    (motive := fun node branches => (branches.map g.branchTally).sum = g.tally node)
    (fun m _ => ?_) (fun test consequent => ?_) (fun test consequent alternate ih => ?_) node
  · simp [branchTally]
  · rw [g.tally_of_own rfl]
    simp [branchTally, below, kept, children]
  · rw [g.tally_of_own rfl, List.map_cons, List.sum_cons, ih]
    simp [branchTally, below, kept, children, add_assoc]

/-! ### Covered trees -/

variable {g} {node : Node}

/-- The trees that the gauge is about. -/
structure Covers (g : Gauge M) (node : Node) : Prop where
  grammatical : node.Grammatical
  admitted : ∀ m ∈ node.subtrees, g.Admits m

theorem Covers.fits (h : g.Covers node) : node.fits := (grammatical_iff.1 h.grammatical).1

theorem Covers.admits (h : g.Covers node) : g.Admits node :=
  h.admitted node (mem_subtrees_self node)

theorem Covers.subtree (h : g.Covers node) {m : Node} (hm : m ∈ node.subtrees) : g.Covers m where
  grammatical := h.grammatical.subtree hm
  admitted := fun k hk => h.admitted k (mem_subtrees_trans hk hm)

theorem Covers.descendant (h : g.Covers node) {m : Node} (hm : m ∈ node.descendants) :
    g.Covers m :=
  h.subtree (mem_subtrees_of_mem_descendants hm)

theorem Covers.child (h : g.Covers node) {child : Node} (hc : child ∈ node.children) :
    g.Covers child :=
  h.descendant (mem_descendants_of_mem_children hc)

theorem Covers.rebindReceiver (h : g.Covers node) {text : String}
    (ht : text ∈ [Rule.receiver, Rule.placeReceiver]) : g.Covers (node.rebindReceiver text) where
  grammatical := h.grammatical.rebindReceiver text
  admitted := forall_subtrees_rebindReceiver (g.receiver ht).1 g.access h.admitted

theorem Covers.access {object property : Node} {computed : Bool}
    (h : g.Covers (.memberExpression object property computed)) :
    g.Covers object ∧ g.Covers property :=
  ⟨h.child (by simp [children]), h.child (by simp [children])⟩

theorem Covers.call {callee : Node} {arguments : List Node}
    (h : g.Covers (.callExpression callee arguments)) :
    g.Covers callee ∧ ∀ a ∈ arguments, g.Covers a :=
  ⟨h.child (by simp [children]), fun a ha => h.child (by simp [children, ha])⟩

/-- The property of a dotted access is a name. -/
theorem Covers.isIdentifier_property {object property : Node}
    (h : g.Covers (.memberExpression object property false)) : property.isIdentifier := by
  have hfits := h.fits
  simp only [Node.fits, Bool.and_eq_true] at hfits
  exact hfits.2

/-! ### Comparing -/

/-- The forms compare to a measure of trees, and each of them stands at the head of a list as any
other form does. -/
structure Weighs (g : Gauge M) (total : M) (forms : List Form) : Prop where
  rel : g.Rel (g.weights forms) total
  heads : ∀ form ∈ forms, g.IsHead form

/-- The form compares to a measure of trees, and stands at the head of a list as any other form
does. -/
structure WeighsOne (g : Gauge M) (total : M) (form : Form) : Prop where
  rel : g.Rel (g.weight form) total
  head : g.IsHead form

theorem weighs_nil (g : Gauge M) : g.Weighs 0 [] := ⟨g.zero, by simp⟩

theorem WeighsOne.singleton {total : M} {form : Form} (h : g.WeighsOne total form) :
    g.Weighs total [form] :=
  ⟨by simpa using h.rel, by simpa using h.head⟩

theorem Weighs.append {total other : M} {forms others : List Form} (h : g.Weighs total forms)
    (h' : g.Weighs other others) : g.Weighs (total + other) (forms ++ others) :=
  ⟨by simpa using g.add h.rel h'.rel, List.forall_mem_append.2 ⟨h.heads, h'.heads⟩⟩

/-- A list of forms, any of which could stand at its head. -/
theorem Weighs.list {total : M} {forms : List Form} (h : g.Weighs total forms) :
    g.WeighsOne total (.list forms) := by
  refine ⟨?_, isHead_of_symbol?_eq_none rfl⟩
  rw [g.list fun form hm => h.heads form (List.mem_of_mem_head? hm)]
  exact h.rel

theorem Weighs.sequence {total : M} {forms : List Form} (h : g.Weighs total forms) :
    g.WeighsOne total (.sequence forms) := by
  refine ⟨?_, ?_⟩
  · rw [g.weight_sequence]
    exact h.rel
  · unfold Form.sequence
    split
    · exact h.heads _ (by simp)
    · exact isHead_of_symbol?_eq_none rfl

theorem weighsOne_idleCall {head : String} (hh : g.IsIdle head) {args : List Form} {total : M}
    (h : g.Rel (g.weights args) total) : g.WeighsOne total (.call head args) :=
  ⟨by rwa [g.weight_idleCall hh], isHead_of_symbol?_eq_none rfl⟩

/-- A list that starts with a plain word. -/
theorem weighsOne_call {head : String} (hh : IsPlainWord head) {args : List Form} {total : M}
    (h : g.Rel (g.weights args) total) : g.WeighsOne total (.call head args) :=
  weighsOne_idleCall (isIdle_of_isPlainWord hh) h

end Gauge

namespace Rule

variable {M : Type} [AddMonoid M] {g : Gauge M} {visit : Visit} {node : Node}

/-- The forms of every tree that the gauge covers compare to the tree. -/
def Weighs (g : Gauge M) (visit : Visit) : Prop :=
  ∀ node, g.Covers node → ∀ context,
    Yields (visit node context) (g.Weighs (g.tally node + g.asking context node))

theorem Weighs.forms (hv : Weighs g visit) (h : g.Covers node) {context : Context}
    (hc : context.asks = false) : Yields (visit node context) (g.Weighs (g.tally node)) := by
  simpa [g.asking_of_not_asks hc] using hv node h context

theorem Weighs.one (hv : Weighs g visit) (h : g.Covers node) {context : Context}
    (hc : context.asks = false) :
    Yields (visit.one node context) (g.WeighsOne (g.tally node)) :=
  yields_bind (hv.forms h hc) fun _ hforms => yields_pure hforms.sequence

theorem Weighs.callee (hv : Weighs g visit) (h : g.Covers node) :
    Yields (visit.one node .callee) (g.WeighsOne (g.reached node)) :=
  yields_bind (hv node h .callee) fun _ hforms => yields_pure hforms.sequence

theorem Weighs.block (hv : Weighs g visit) (h : g.Covers node) :
    Yields (visit.block node) (g.Weighs (g.tally node)) := by
  refine yields_bind (hv.forms h rfl) fun forms hforms => yields_pure ⟨?_, ?_⟩
  · rw [g.weights_filter]
    exact hforms.rel
  · exact fun form hm => hforms.heads form (List.mem_of_mem_filter hm)

/-- A name that is bound. -/
theorem weighs_bindingName (h : g.Covers node) :
    Yields (bindingName node) fun form => g.Rel (g.weight form) (g.tally node) := by
  cases node with
  | identifier text =>
    rw [g.tally_identifier]
    exact yields_ok (g.symbol h.admits rfl)
  | _ => exact yields_error _

/-- Results, one for each item, that compare to the measures of the items. -/
theorem rel_mapM {α β : Type} {f : α → Except Fault β} {weight : β → M} {total : α → M}
    {items : List α}
    (h : ∀ item ∈ items, Yields (f item) fun result => g.Rel (weight result) (total item)) :
    Yields (items.mapM f) fun results =>
      g.Rel (results.map weight).sum (items.map total).sum := by
  induction items with
  | nil => exact yields_pure g.zero
  | cons item items ih =>
    rw [List.forall_mem_cons] at h
    rw [List.mapM_cons]
    refine yields_bind h.1 fun result hresult => yields_bind (ih h.2) fun results hresults => ?_
    exact yields_pure (by simpa using g.add hresult hresults)

/-- Forms, one for each tree. -/
theorem rel_trees {f : Node → Except Fault Form} {nodes : List Node}
    (h : ∀ node ∈ nodes, Yields (f node) fun form => g.Rel (g.weight form) (g.tally node)) :
    Yields (nodes.mapM f) fun forms => g.Rel (g.weights forms) (g.tallies nodes) :=
  rel_mapM h

theorem weighs_trees {f : Node → Except Fault Form} {nodes : List Node}
    (h : ∀ node ∈ nodes, Yields (f node) (g.WeighsOne (g.tally node))) :
    Yields (nodes.mapM f) (g.Weighs (g.tallies nodes)) := by
  have hrel := rel_trees fun node hm => (h node hm).imp fun _ hform => hform.rel
  have hheads := yields_mapM fun node hm => (h node hm).imp fun _ hform => hform.head
  exact (hrel.and hheads).imp fun _ hforms => ⟨hforms.1, hforms.2⟩

/-- Lists of forms, one list for each item, as one list. -/
theorem rel_flatten {α : Type} {f : α → Except Fault (List Form)} {total : α → M}
    {items : List α}
    (h : ∀ item ∈ items, Yields (f item) fun forms => g.Rel (g.weights forms) (total item)) :
    Yields (items.mapM f) fun lists =>
      g.Rel (g.weights lists.flatten) (items.map total).sum :=
  (rel_mapM h).imp fun lists hlists => by rwa [g.weights_flatten]

end Rule

end ScriptForms
