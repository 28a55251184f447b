import ScriptForms.Proofs.Node.Text
import ScriptForms.Proofs.Outcome
import ScriptForms.Rule.Convert

/-!
# Comparing two conversions of a tree

Two conversions of one tree, each under a scope of its own, run through the same rules. A relation
between forms that every way to build a form keeps therefore relates the results of the two, if it
relates what the scopes make of each name. A `Comparison` is such a relation together with what it
asks of the texts of the tree.

Taken with one scope on both sides, a relation that holds of a form and itself if the form has some
property says that every form of the tree has the property.

* `Written`: the words that the rules write, given the words of a tree.
* `Comparison`: the relation, and the ways to build a form that keep it.
* `Comparison.Covers`: the trees that a comparison is about.
* `Rule.Agrees`: two conversions that agree on those trees.
-/

namespace ScriptForms

open Node Form

/-! ### Words -/

/-- The words that the rules write of their own accord. -/
def vocabulary : List String := [
  "nil", "do", "let", "def", "defn", "fn", "when", "if", "cond", "else", "case", "throw", "try",
  "catch", "finally", "_", "js-debugger", "str", ".concat", "aget", "aset", "..", "set!",
  "js-delete", "->", "new", "this-as", Rule.receiver, Rule.placeReceiver, hostName "Object",
  hostName "Object.assign", hostName "require", hostName "exports",
  dotGetterName Rule.defaultExport]

/-- The words that the rules write, given the words of a tree. -/
inductive Written (word : String → Prop) : String → Prop
  | fixed {text : String} (h : text ∈ vocabulary) : Written word text
  | own {text : String} (h : word text) : Written word text
  | host {text : String} (h : word text) : Written word (hostName text)
  | getter {text : String} (h : word text) : Written word (getterName text)
  | dotGetter {text : String} (h : word text) : Written word (dotGetterName text)
  | method {text : String} (h : word text) : Written word (methodName text)
  | operator {text : String} (h : word text) : Written word (Rule.operatorName text)
  | arithmetic {text : String} (h : word text) (hne : text ≠ "=") :
      Written word (Rule.arithmeticOperator text)
  | key {text : String} (h : Rule.isKeywordSafe text.toList) : Written word text

/-! ### Comparisons -/

/-- A relation between the forms of two conversions that every way to build a form keeps, for trees
whose texts are as the comparison asks. -/
structure Comparison where
  left : Scope
  right : Scope
  /-- The names that a tree may refer to. -/
  name : String → Prop
  /-- The names, operators and numbers that a tree may hold. -/
  word : String → Prop
  /-- The patterns of the regular expressions of a tree. -/
  pattern : String → Prop
  /-- The comment lines of a tree. -/
  commentLine : String → Prop
  Related : Form → Form → Prop
  receivers : ∀ text ∈ [Rule.receiver, Rule.placeReceiver], name text ∧ word text
  identifier {text : String} : name text → word text → ∀ context,
    Related (Rule.identifier left text context) (Rule.identifier right text context)
  symbol {text : String} : Written word text → Related (.symbol text) (.symbol text)
  keyword {text : String} : Written word text → Related (.keyword text) (.keyword text)
  number {text : String} : word text → Related (.number text) (.number text)
  string (text : String) : Related (.string text) (.string text)
  boolean (value : Bool) : Related (.boolean value) (.boolean value)
  regex {text : String} : pattern text → ∀ flags, Related (.regex text flags) (.regex text flags)
  comment {text : String} : commentLine text → Related (.comment text) (.comment text)
  marker {form : Form} : form.isMarker → Related form form
  list {forms others : List Form} : List.Forall₂ Related forms others →
    Related (.list forms) (.list others)
  vector {forms others : List Form} : List.Forall₂ Related forms others →
    Related (.vector forms) (.vector others)
  hashMap {forms others : List Form} : List.Forall₂ Related forms others →
    Related (.hashMap forms) (.hashMap others)
  mapEntry {key key' value value' : Form} : Related key key' → Related value value' →
    Related (.mapEntry key value) (.mapEntry key' value')
  hostTagged {form other : Form} : Related form other →
    Related (.tagged "#js" form) (.tagged "#js" other)
  isMarker_eq {form other : Form} : Related form other → form.isMarker = other.isMarker

namespace Comparison

variable (c : Comparison)

/-- The texts of the node itself are as the comparison asks. -/
structure HasTexts (node : Node) : Prop where
  name : ∀ text ∈ node.identifier?, c.name text
  word : ∀ text ∈ node.words, c.word text
  pattern : ∀ text ∈ node.pattern?, c.pattern text
  comment : ∀ line ∈ node.commentLines, c.commentLine line

/-- The trees that the comparison is about: they follow the grammar, stand below a program, and have
texts as the comparison asks. -/
structure Covers (node : Node) : Prop where
  grammatical : node.Grammatical
  inner : node.isProgram = false
  texts : ∀ m ∈ node.subtrees, c.HasTexts m

/-- Two forms define the same name. -/
def DefineAlike (form other : Form) : Prop :=
  ∃ text, c.word text ∧ form.definedName? = some text ∧ other.definedName? = some text

/-- The forms of a node in two conversions: they are related one by one, and those of a definition
define the same names. -/
structure RelatedForms (node : Node) (left right : List Form) : Prop where
  forms : List.Forall₂ c.Related left right
  defined : node.isDefinition → List.Forall₂ c.DefineAlike left right

/-- The same name on both sides. -/
def SameName (form other : Form) : Prop :=
  ∃ text, c.word text ∧ form = .symbol text ∧ other = .symbol text

variable {c} {node : Node}

/-! ### Covered trees -/

theorem Covers.descendant (h : c.Covers node) {m : Node} (hm : m ∈ node.descendants) :
    c.Covers m where
  grammatical := h.grammatical.descendants hm
  inner := h.grammatical.not_isProgram_descendant hm
  texts := fun k hk => h.texts k (mem_subtrees_trans hk (mem_subtrees_of_mem_descendants hm))

theorem Covers.child (h : c.Covers node) {child : Node} (hc : child ∈ node.children) :
    c.Covers child :=
  h.descendant (mem_descendants_of_mem_children hc)

theorem Covers.subtree (h : c.Covers node) {m : Node} (hm : m ∈ node.subtrees) : c.Covers m := by
  rw [subtrees_eq] at hm
  rcases List.mem_cons.1 hm with rfl | hm
  · exact h
  · exact h.descendant hm

theorem Covers.word (h : c.Covers node) {text : String} (ht : text ∈ node.words) : c.word text :=
  (h.texts node (mem_subtrees_self node)).word text ht

theorem Covers.rebindReceiver (h : c.Covers node) (name : String)
    (hn : name ∈ [Rule.receiver, Rule.placeReceiver]) : c.Covers (node.rebindReceiver name) where
  grammatical := h.grammatical.rebindReceiver name
  inner := by
    have hinner := h.inner
    cases node <;> simp_all [Node.rebindReceiver, Node.isProgram]
  texts := by
    refine forall_subtrees_rebindReceiver ?_ (fun object property computed => ?_) h.texts
    · exact ⟨by simpa [identifier?] using (c.receivers name hn).1,
        by simpa [words] using (c.receivers name hn).2, by simp [pattern?], by simp [commentLines]⟩
    · exact ⟨by simp [identifier?], by simp [words], by simp [pattern?], by simp [commentLines]⟩

/-! ### Related forms -/

theorem related_fixed {text : String} (h : text ∈ vocabulary) :
    c.Related (.symbol text) (.symbol text) :=
  c.symbol (.fixed h)

theorem related_nil : c.Related .nil .nil := related_fixed (by decide)

theorem related_call {head : String} {args others : List Form} (hh : Written c.word head)
    (h : List.Forall₂ c.Related args others) : c.Related (.call head args) (.call head others) :=
  c.list (.cons (c.symbol hh) h)

/-- A list whose head is a word of the rules. -/
theorem related_fixedCall {head : String} {args others : List Form}
    (hh : head ∈ vocabulary) (h : List.Forall₂ c.Related args others) :
    c.Related (.call head args) (.call head others) :=
  related_call (.fixed hh) h

theorem related_sequence {forms others : List Form} (h : List.Forall₂ c.Related forms others) :
    c.Related (.sequence forms) (.sequence others) := by
  cases h with
  | nil => exact related_fixedCall (by decide) .nil
  | cons hfirst h =>
    cases h with
    | nil => exact hfirst
    | cons hsecond h => exact related_fixedCall (by decide) (.cons hfirst (.cons hsecond h))

theorem related_filter {forms others : List Form} (h : List.Forall₂ c.Related forms others) :
    List.Forall₂ c.Related (forms.filter fun form => !form.isMarker)
      (others.filter fun form => !form.isMarker) := by
  induction h with
  | nil => exact .nil
  | cons hform h ih =>
    rw [List.filter_cons, List.filter_cons, c.isMarker_eq hform]
    split
    · exact .cons hform ih
    · exact ih

theorem related_append {forms others forms' others' : List Form}
    (h : List.Forall₂ c.Related forms others) (h' : List.Forall₂ c.Related forms' others') :
    List.Forall₂ c.Related (forms ++ forms') (others ++ others') :=
  List.rel_append h h'

theorem related_flatten {lists others : List (List Form)}
    (h : List.Forall₂ (List.Forall₂ c.Related) lists others) :
    List.Forall₂ c.Related lists.flatten others.flatten :=
  List.rel_flatten h

theorem SameName.related {form other : Form} (h : c.SameName form other) :
    c.Related form other := by
  obtain ⟨text, hw, rfl, rfl⟩ := h
  exact c.symbol (.own hw)

theorem related_thisAs {name : String} (hn : name ∈ [Rule.receiver, Rule.placeReceiver])
    {form other : Form} (h : c.Related form other) :
    c.Related (.thisAs name form) (.thisAs name other) :=
  related_fixedCall (by decide) (.cons (c.symbol (.own (c.receivers name hn).2)) (.cons h .nil))

end Comparison

namespace Rule

variable {c : Comparison} {visit₁ visit₂ : Visit} {node : Node}

/-- The two conversions agree on every tree that the comparison covers. -/
def Agrees (c : Comparison) (visit₁ visit₂ : Visit) : Prop :=
  ∀ node, c.Covers node → ∀ context,
    Agree (c.RelatedForms node) (visit₁ node context) (visit₂ node context)

/-! ### Uses of a child -/

theorem Agrees.forms (hv : Agrees c visit₁ visit₂) (h : c.Covers node) (context : Context) :
    Agree (List.Forall₂ c.Related) (visit₁ node context) (visit₂ node context) :=
  (hv node h context).imp fun _ _ hforms => hforms.forms

theorem Agrees.one (hv : Agrees c visit₁ visit₂) (h : c.Covers node) (context : Context) :
    Agree c.Related (visit₁.one node context) (visit₂.one node context) :=
  agree_bind (hv.forms h context) fun _ _ hforms => agree_pure (Comparison.related_sequence hforms)

theorem Agrees.block (hv : Agrees c visit₁ visit₂) (h : c.Covers node) :
    Agree (List.Forall₂ c.Related) (visit₁.block node) (visit₂.block node) :=
  agree_bind (hv.forms h .body) fun _ _ hforms => agree_pure (Comparison.related_filter hforms)

theorem agree_bindingName (h : c.Covers node) :
    Agree c.SameName (bindingName node) (bindingName node) := by
  cases node with
  | identifier name => exact .ok ⟨name, h.word (by simp [words]), rfl, rfl⟩
  | _ => exact .error _

theorem agree_bindingNames {nodes : List Node} (h : ∀ n ∈ nodes, c.Covers n) :
    Agree (List.Forall₂ c.Related) (nodes.mapM bindingName) (nodes.mapM bindingName) :=
  agree_mapM fun n hn => (agree_bindingName (h n hn)).imp fun _ _ hname => hname.related

end Rule

end ScriptForms
