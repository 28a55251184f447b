import ScriptForms.Proofs.Acceptance.Convert
import ScriptForms.Proofs.Host

/-!
# Local names that the scope knows

Whether a name is written as one of the host environment is decided from the name and from the place
where it stands. The functions, handlers and blocks around it play no part. So a parameter or a
variable of a block that has the name of something in the host environment is lost wherever it is
called, constructed or accessed, and kept wherever else it stands.

* `Node.boundNames`, `Node.region`: the names that a node binds, and where they are bound.
* `Node.KeepsLocals`: no name of the host environment is written for a name that is bound.
* `Node.toProgram_keepsLocals_iff`: the scripts that keep their local names.
-/

namespace ScriptForms

namespace Form

/-- A form mentions a name iff the name stands in it, written as one of the host environment. -/
theorem mentions_iff {name : String} (h : name ∉ reservedHosts) (form : Form) :
    form.mentions name ↔ .symbol (hostName name) ∈ form.subforms := by
  have hhost : hosted? (hostName name) = some name := by simp [hosted?_hostName, h]
  simp only [mentions, List.any_eq_true, beq_iff_eq]
  constructor
  · rintro ⟨m, hm, hsymbol⟩
    obtain ⟨text, htext, hname⟩ := Option.bind_eq_some_iff.1 hsymbol
    cases m with
    | symbol other =>
      obtain rfl := Option.some.inj htext
      rwa [← hosted?_eq_some hname]
    | _ => cases htext
  · intro hm
    exact ⟨_, hm, hhost⟩

end Form

namespace Node

open Form

/-! ### Names that are bound -/

/-- The name that a part of a declaration declares. -/
def declaredName? : Node → Option String
  | .variableDeclarator id _ => id.identifier?
  | _ => none

/-- The names that a statement declares for the block it stands in. -/
def lexicalNames : Node → List String
  | .variableDeclaration kind declarations =>
    if kind = .var then [] else declarations.filterMap declaredName?
  | _ => []

/-- The names that a node binds: the parameters of a function or a handler, and the variables of a
block or of the clauses of a `switch`. -/
def boundNames : Node → List String
  | .functionDeclaration _ params _ | .functionExpression _ params _
  | .arrowFunctionExpression params _ | .objectMethod _ _ params _ _ =>
    params.filterMap identifier?
  | .catchClause param _ => param.toList.filterMap identifier?
  | .blockStatement body => body.flatMap lexicalNames
  | .switchStatement _ cases => (cases.flatMap children).flatMap lexicalNames
  | _ => []

/-- Where the names that a node binds are bound. -/
def region : Node → List Node
  | .functionDeclaration _ _ body | .functionExpression _ _ body
  | .arrowFunctionExpression _ body | .objectMethod _ _ _ body _ | .catchClause _ body => [body]
  | .blockStatement body => [.blockStatement body]
  -- The discriminant is evaluated outside the clauses.
  | .switchStatement _ cases => cases.flatMap children
  | _ => []

variable {node part : Node} {scope : Scope} {name : String}

theorem region_subset (node : Node) : node.region ⊆ node.subtrees := by
  intro part hp
  have hchild : part ∈ node.children → part ∈ node.subtrees := fun h =>
    mem_subtrees_of_mem_descendants (mem_descendants_of_mem_children h)
  cases node with
  | blockStatement body =>
    obtain rfl := List.mem_singleton.1 hp
    exact mem_subtrees_self _
  | switchStatement discriminant cases =>
    obtain ⟨clause, hc, hpart⟩ := List.mem_flatMap.1 hp
    exact mem_subtrees_of_mem_descendants (mem_descendants_of_child (by simp [children, hc])
      (mem_subtrees_of_mem_descendants (mem_descendants_of_mem_children hpart)))
  | functionDeclaration | functionExpression | arrowFunctionExpression | objectMethod
  | catchClause => exact hchild (by simp_all [region, children])
  | _ => cases hp

/-- The parts of a region have forms of their own. -/
theorem standsAlone_of_mem_region (hg : node.Grammatical) (hp : part ∈ node.region) :
    part.standsAlone := by
  have hfits := (grammatical_iff.1 hg).1
  cases node with
  | blockStatement body =>
    obtain rfl := List.mem_singleton.1 hp
    exact standsAlone_of_isStatement rfl
  | switchStatement discriminant cases =>
    obtain ⟨clause, hc, hpart⟩ := List.mem_flatMap.1 hp
    simp only [fits, Bool.and_eq_true, List.all_eq_true] at hfits
    have hclause := (grammatical_iff.1 (hg.child (List.mem_cons_of_mem _ hc))).1
    cases clause with
    | switchCase test consequent =>
      simp only [fits, Bool.and_eq_true, List.all_eq_true, Option.all_eq_true] at hclause
      rcases List.mem_append.1 hpart with hpart | hpart
      · exact standsAlone_of_isExpression (hclause.1 part (Option.mem_toList.1 hpart))
      · exact standsAlone_of_isStatement (hclause.2 part hpart)
    | _ => cases hfits.2 _ hc
  | arrowFunctionExpression params body =>
    obtain rfl := List.mem_singleton.1 hp
    simp only [fits, Bool.and_eq_true, Bool.or_eq_true] at hfits
    exact hfits.2.elim standsAlone_of_isBlock standsAlone_of_isExpression
  | functionDeclaration | functionExpression | objectMethod | catchClause =>
    obtain rfl := List.mem_singleton.1 hp
    simp only [fits, Bool.and_eq_true] at hfits
    exact standsAlone_of_isBlock hfits.2
  | _ => cases hp

/-- Wherever a name is bound in a script, no form takes it for a name of the host environment. The
names that the rules write of their own accord are left aside. -/
def KeepsLocals (scope : Scope) (node : Node) : Prop :=
  ∀ m ∈ node.subtrees, ∀ name ∈ m.boundNames, name ∉ reservedHosts → ∀ part ∈ m.region,
    ∀ forms, part.forms scope .body = .ok forms →
      ∀ form ∈ forms, .symbol (hostName name) ∉ form.subforms

/-! ### Names that are kept -/

/-- A name that the scope does not know is not checked, and neither is one that the rules write of
their own accord. -/
theorem checks_of_unknown (h : scope name = false ∨ name ∈ reservedHosts) (node : Node) :
    node.checks scope name = false := by
  have hhost : ∀ m : Node, m.isHost scope name = false := by
    intro m
    cases m with
    | identifier text =>
      by_cases hname : text = name
      · rcases h with h | h <;> simp [isHost, hname, h]
      · simp [isHost, hname]
    | _ => rfl
  rw [checks, List.any_eq_false]
  intro m _
  cases hm : m.checked? with
  | none => simp
  | some asked => simp [hhost asked]

/-- The forms of a body hold a name of the host environment iff the body checks it. -/
theorem symbol_mem_forms_iff (h : node.Readable) {forms : List Form}
    (hf : node.forms scope .body = .ok forms) (hn : name ∉ reservedHosts) :
    (∃ form ∈ forms, .symbol (hostName name) ∈ form.subforms) ↔ node.checks scope name := by
  rw [← mentions_forms h hf name]
  simp only [mentions_iff hn]

theorem symbol_mem_toProgram_iff (hp : node.isProgram) (h : node.Readable) {form : Form}
    (hf : node.toProgram scope = .ok form) (hn : name ∉ reservedHosts) :
    .symbol (hostName name) ∈ form.subforms ↔ node.checks scope name := by
  rw [← mentions_iff hn, mentions_toProgram h hp hf]

/-- A script that has a form keeps its local names iff none of them is called, constructed or
accessed where it is bound and known to the scope. The form holds a name of the host environment iff
the script has the name in such a place at all, bound or not. A scope that knows no local name keeps
them all. -/
theorem toProgram_keepsLocals_iff (node : Node) (h : node.IsScript) (hr : node.Readable)
    (scope : Scope) (form : Form) (hf : node.toProgram scope = .ok form) :
    (node.KeepsLocals scope ↔ ∀ m ∈ node.subtrees, ∀ name ∈ m.boundNames, ∀ part ∈ m.region,
      part.checks scope name = false) ∧
    (∀ name ∉ reservedHosts,
      .symbol (hostName name) ∈ form.subforms ↔ node.checks scope name) ∧
    ((∀ m ∈ node.subtrees, ∀ name ∈ m.boundNames, scope name = false) →
      node.KeepsLocals scope) := by
  have haccepted := (succeeds_toProgram scope h).1 ⟨form, hf⟩
  have hiff : node.KeepsLocals scope ↔ ∀ m ∈ node.subtrees, ∀ name ∈ m.boundNames,
      ∀ part ∈ m.region, part.checks scope name = false := by
    refine forall₂_congr fun m hm => forall₂_congr fun name hname => ?_
    by_cases hn : name ∈ reservedHosts
    · exact ⟨fun _ part _ => checks_of_unknown (.inr hn) part, fun _ hnot => absurd hn hnot⟩
    rw [forall_prop_of_true hn]
    refine forall₂_congr fun part hp => ?_
    have hpart : part ∈ node.subtrees := mem_subtrees_trans (region_subset m hp) hm
    have hreadable := hr.subtree hpart
    -- A part of a script that has a form has forms itself, so that there is a form to look into.
    obtain ⟨forms, hforms⟩ := (Rule.convert_decides scope part.size part (Nat.lt_succ_self _)
      hreadable.grammatical (standsAlone_of_mem_region (h.2.subtree hm) hp) .body).2
        fun k hk => haccepted k (mem_subtrees_trans hk hpart)
    have hsymbol := symbol_mem_forms_iff hreadable hforms hn
    constructor
    · intro hkeeps
      rw [← Bool.not_eq_true, ← hsymbol]
      rintro ⟨form, hm, hmem⟩
      exact hkeeps forms hforms form hm hmem
    · intro hchecks others hothers form hm hmem
      rw [show others = forms from Except.ok.inj (hothers.symm.trans hforms)] at hm
      rw [hsymbol.1 ⟨form, hm, hmem⟩] at hchecks
      cases hchecks
  refine ⟨hiff, fun name hn => symbol_mem_toProgram_iff h.1 hr hf hn, fun hunknown => ?_⟩
  exact hiff.2 fun m hm name hname part _ => checks_of_unknown (.inl (hunknown m hm name hname)) part

/-- The script `function f(history) { ... }` with a body of one expression. -/
def historyScript (expression : Node) : Node :=
  .program [.functionDeclaration (.identifier "f") [.identifier "history"]
    (.blockStatement [.expressionStatement expression []])]

/-- The form of `historyScript` with the given form of its body. -/
def historyForm (body : Form) : Form :=
  .program [.list [.symbol "defn", .symbol "f", .vector [.symbol "history"], body]]

/-- The expression `history.push(1)`. -/
def historyPush : Node :=
  .callExpression (.memberExpression (.identifier "history") (.identifier "push") false)
    [.numericLiteral "1"]

/-- In `function f(history) { g(history); }` the parameter is an argument, and is kept. -/
theorem toProgram_historyArgument :
    let node := historyScript (.callExpression (.identifier "g") [.identifier "history"])
    node.IsScript ∧ node.Readable ∧
      node.toProgram (· == "history") =
        .ok (historyForm (.list [.symbol "g", .symbol "history"])) ∧
      node.KeepsLocals (· == "history") := by
  intro node
  have hscript : node.IsScript := ⟨rfl, by unfold Grammatical; decide⟩
  have hreadable : node.Readable := ⟨hscript.2, by decide, by decide, by decide⟩
  refine ⟨hscript, hreadable, rfl, ?_⟩
  exact (toProgram_keepsLocals_iff node hscript hreadable _ _ rfl).1.2 (by decide)

/-- In `function f(history) { history.push(1); }` the parameter is accessed, and the form reads
`history` from the host environment instead. The name is one of those that are known unless the
settings say otherwise. -/
theorem toProgram_historyPush_lost :
    NameSet.host.scope "history" ∧
      (historyScript historyPush).IsScript ∧ (historyScript historyPush).Readable ∧
      (historyScript historyPush).toProgram (· == "history") = .ok (historyForm
        (.list [.symbol ".push", .symbol "js/history", .number "1"])) ∧
      ¬(historyScript historyPush).KeepsLocals (· == "history") := by
  have hscript : (historyScript historyPush).IsScript := ⟨rfl, by unfold Grammatical; decide⟩
  refine ⟨by decide +kernel, hscript, ⟨hscript.2, by decide, by decide, by decide⟩, rfl,
    fun hkeeps => ?_⟩
  have hfunction : .functionDeclaration (.identifier "f") [.identifier "history"]
      (.blockStatement [.expressionStatement historyPush []]) ∈
        (historyScript historyPush).subtrees :=
    mem_subtrees_of_mem_descendants
      (mem_descendants_of_mem_children (by simp [historyScript, children]))
  refine hkeeps _ hfunction "history" (by decide) (by decide) _ List.mem_cons_self
    [.list [.symbol ".push", .symbol "js/history", .number "1"]] rfl _ List.mem_cons_self ?_
  exact (mentions_iff (by decide) _).1 rfl

end Node

end ScriptForms
