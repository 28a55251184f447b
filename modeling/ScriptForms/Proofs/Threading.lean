import ScriptForms.Proofs.Locality

/-!
# Threading agrees with nesting

A chain of more than two calls becomes a `->` form, whose stages take the value so far as their
first argument. Every other call nests: the calls before it stand inside of it. The two are the same
once `->` is expanded, and they fail for the same reasons in the same order.

* `Form.expand`: a `->` form with its stages nested.
* `Rule.nestedCalls`: a chain of calls as nested lists, whatever its length.
* `Node.forms_callExpression`: the form of a call, expanded, is the nested one.
-/

namespace ScriptForms

open Node

namespace Form

/-! ### Expansion -/

/-- A stage of a `->` form with the value so far as its second item. -/
def threadInto (value stage : Form) : Form :=
  match stage with
  | .list (head :: args) => .list (head :: value :: args)
  | _ => .list [stage, value]

/-- A `->` form with its stages nested, from left to right. Any other form stays as it is. -/
def expand : Form → Form
  | .list (.symbol "->" :: value :: stages) => stages.foldl threadInto value
  | form => form

@[simp] theorem expand_thread (value : Form) (stages : List Form) :
    (call "->" (value :: stages)).expand = stages.foldl threadInto value := rfl

example : (call "->" [.list [.symbol "f"], .list [.symbol ".g", .symbol "a"], .symbol "h"]).expand =
    .list [.symbol "h", .list [.symbol ".g", .list [.symbol "f"], .symbol "a"]] := rfl

end Form

namespace Rule

/-! ### Nested calls -/

/-- A later call of a chain: the list `(.name value args ...)` around the calls before it. -/
def nestedCall (visit : Visit) (value : Form) (link : CallLink) : Except Fault Form :=
  match link.callee with
  | .memberExpression _ (.identifier name) _ => do
    let args ← arguments visit link.arguments
    return .call (Form.methodName name) (value :: args)
  | callee => .error (.unsupported callee)

/-- A chain of calls, each one around the calls before it. -/
def nestedCalls (visit : Visit) (node : Node) : Except Fault Form :=
  match node.callChain with
  | first :: others => do
    let value ← call visit first.callee first.arguments
    others.foldlM (nestedCall visit) value
  | [] => .error (.unsupported node)

/-- The conversion writes a name in the place of a method as that method. -/
def NamesMethods (visit : Visit) : Prop :=
  ∀ name, visit.one (.identifier name) (.named .method) = .ok (.symbol (Form.methodName name))

/-- The callee of a link is a dotted access whose property is a name. -/
def IsMethodLink (link : CallLink) : Prop :=
  ∃ object name, link.callee = .memberExpression object (.identifier name) false

variable {visit : Visit}

/-- Threading a value into the stages of some calls nests the calls around it. -/
theorem agree_stages (hv : NamesMethods visit) {links : List CallLink}
    (h : ∀ link ∈ links, IsMethodLink link) (value : Form) :
    Agree (fun stages nested => stages.foldl Form.threadInto value = nested)
      (links.mapM (stage visit)) (links.foldlM (nestedCall visit) value) := by
  induction links generalizing value with
  | nil => exact agree_pure rfl
  | cons link links ih =>
    rw [List.forall_mem_cons] at h
    obtain ⟨⟨object, name, hcallee⟩, hlinks⟩ := h
    rw [List.mapM_cons, List.foldlM_cons]
    have hstage : Agree (fun stage nested => Form.threadInto value stage = nested)
        (stage visit link) (nestedCall visit value link) := by
      simp only [stage, nestedCall, hcallee, hv name, ok_bind]
      cases arguments visit link.arguments with
      | error fault => exact .error fault
      | ok args => exact .ok rfl
    refine agree_bind hstage ?_
    rintro stage nested rfl
    -- The rest is nested around what this stage makes of the value.
    exact (ih hlinks (Form.threadInto value stage)).wrap fun stages nested hstages => hstages

/-- A call that ends no long chain is not threaded. -/
theorem callExpression_of_not_isPipeline {callee : Node} {nodes : List Node}
    (h : isPipeline (Node.callExpression callee nodes).callChain = false) :
    callExpression visit callee nodes = call visit callee nodes := by
  simp only [callExpression, h]

/-- The conversion of a call is that of its rule. -/
def FollowsCalls (visit : Visit) : Prop :=
  ∀ callee nodes, visit.one (.callExpression callee nodes) .callee =
    callExpression visit callee nodes

/-- The call of a method of another call, on its own. -/
theorem call_method (hv : NamesMethods visit) (callee : Node) (inner : List Node) (name : String)
    (nodes : List Node) :
    call visit (.memberExpression (.callExpression callee inner) (.identifier name) false) nodes =
      (do
        let value ← visit.one (.callExpression callee inner) .callee
        nestedCall visit value
          ⟨.memberExpression (.callExpression callee inner) (.identifier name) false, nodes⟩) := by
  simp only [call, isReceiverRooted, isAccess, accessRoot, isThis, Bool.and_false,
    Bool.false_eq_true, if_false, plainCall, callFront, hv name, ok_bind, nestedCall]
  cases visit.one (.callExpression callee inner) .callee with
  | error fault => rfl
  | ok value => rfl

/-- The links of a short chain: a single call, or the call of a method of a single call. -/
theorem callChain_cases {callee : Node} {nodes : List Node}
    (h : isPipeline (Node.callExpression callee nodes).callChain = false) :
    (Node.callExpression callee nodes).callChain = [⟨callee, nodes⟩] ∨
      ∃ callee' inner property,
        callee = .memberExpression (.callExpression callee' inner) property false ∧
        (Node.callExpression callee' inner).callChain = [⟨callee', inner⟩] := by
  generalize hnode : Node.callExpression callee nodes = node at h
  cases node using callChain.fun_cases with
  | case1 callee' inner property nodes' =>
    obtain ⟨rfl, rfl⟩ := Node.callExpression.inj hnode
    refine .inr ⟨callee', inner, property, rfl, ?_⟩
    obtain ⟨first, others, hchain, -⟩ := callChain_eq_cons callee' inner
    rw [callChain, hchain] at h
    -- The chain before the last call has one link, which is the call itself.
    obtain rfl : others = [] := by
      simpa [isPipeline, List.length_eq_zero_iff] using h
    generalize hinner : Node.callExpression callee' inner = other at hchain ⊢
    cases other using callChain.fun_cases with
    | case1 callee'' inner' property' nodes'' =>
      obtain ⟨first', others', hchain', -⟩ := callChain_eq_cons callee'' inner'
      rw [callChain, hchain'] at hchain
      simp at hchain
    | case2 callee'' nodes'' hne =>
      obtain ⟨rfl, rfl⟩ := Node.callExpression.inj hinner
      rw [callChain]
      exact hne
    | case3 other h₁ h₂ => exact absurd hinner.symm (h₂ _ _)
  | case2 callee' nodes' hne =>
    obtain ⟨rfl, rfl⟩ := Node.callExpression.inj hnode
    left
    rw [callChain]
    exact hne
  | case3 node h₁ h₂ => exact absurd hnode.symm (h₂ _ _)

/-- A call, expanded if it is threaded, is the nested one. -/
theorem agree_nestedCalls (hv : NamesMethods visit) (hc : FollowsCalls visit) {callee : Node}
    {nodes : List Node}
    (h : ∀ link ∈ (Node.callExpression callee nodes).callChain.tail, IsMethodLink link) :
    Agree (fun form nested =>
        if isPipeline (Node.callExpression callee nodes).callChain then
          form.head? = some "->" ∧ form.expand = nested
        else form = nested)
      (callExpression visit callee nodes)
      (nestedCalls visit (.callExpression callee nodes)) := by
  obtain ⟨first, others, hchain, -⟩ := callChain_eq_cons callee nodes
  by_cases hlong : isPipeline (Node.callExpression callee nodes).callChain
  · simp only [callExpression, nestedCalls, hlong, if_true]
    rw [hchain] at h ⊢
    refine agree_bind (r := Eq) ?_ ?_
    · cases call visit first.callee first.arguments with
      | error fault => exact .error fault
      | ok value => exact .ok rfl
    · rintro value _ rfl
      exact (agree_stages hv h value).wrap fun stages nested hstages => ⟨rfl, hstages⟩
  · rw [Bool.not_eq_true] at hlong
    simp only [hlong, Bool.false_eq_true, if_false]
    have hsame : callExpression visit callee nodes =
        nestedCalls visit (.callExpression callee nodes) := by
      rw [callExpression_of_not_isPipeline hlong]
      rcases callChain_cases hlong with hone | ⟨callee', inner, property, rfl, hone⟩
      · simp only [nestedCalls, hone, List.foldlM_nil, bind_pure]
      · -- The receiver is a call that is not threaded either.
        rw [callChain, hone] at h
        obtain ⟨object, name, hcallee⟩ := h _ (List.mem_singleton_self _)
        obtain ⟨rfl, rfl, -⟩ := Node.memberExpression.inj hcallee
        rw [call_method hv, hc, callExpression_of_not_isPipeline (by rw [hone]; rfl)]
        simp only [nestedCalls, callChain, hone, List.singleton_append, List.foldlM_cons,
          List.foldlM_nil, bind_pure]
    rw [hsame]
    cases nestedCalls visit (.callExpression callee nodes) with
    | error fault => exact .error fault
    | ok form => exact .ok rfl

end Rule

namespace Node

/-- Whether the property of a dotted access is a name; true of any other node. -/
def hasNamedProperty : Node → Bool
  | .memberExpression _ property false => property.isIdentifier
  | _ => true

theorem namesMethods_forms (scope : Scope) :
    Rule.NamesMethods fun m context => m.forms scope context :=
  fun _ => rfl

theorem followsCalls_forms (scope : Scope) :
    Rule.FollowsCalls fun m context => m.forms scope context := by
  intro callee nodes
  rw [Rule.Visit.one, forms_eq, Rule.step]
  cases Rule.callExpression (fun m context => m.forms scope context) callee nodes with
  | error fault => rfl
  | ok form => rfl

/-- The form of a call is that of the chain of calls that it ends, each call nested around the ones
before it: as it is, or after the expansion of `->` if there are more than two calls. Both fail for
the same reason or not at all. -/
theorem forms_callExpression (scope : Scope) (callee : Node) (arguments : List Node)
    (h : ∀ m ∈ (Node.callExpression callee arguments).subtrees, m.hasNamedProperty)
    (context : Context) :
    Agree (fun forms nested => ∃ form, forms = [form] ∧
        if isPipeline (Node.callExpression callee arguments).callChain then
          form.head? = some "->" ∧ form.expand = nested
        else form = nested)
      ((Node.callExpression callee arguments).forms scope context)
      (Rule.nestedCalls (fun m context => m.forms scope context)
        (.callExpression callee arguments)) := by
  have hlinks : ∀ link ∈ (Node.callExpression callee arguments).callChain.tail,
      Rule.IsMethodLink link := by
    obtain ⟨first, others, hchain, hlater⟩ := callChain_eq_cons callee arguments
    rw [hchain, List.tail_cons]
    intro link hl
    obtain ⟨object, property, hcallee⟩ := hlater link hl
    have hcall := callChain_mem (hchain ▸ List.mem_cons_of_mem first hl)
    have hmember : link.callee ∈ (Node.callExpression callee arguments).subtrees :=
      mem_subtrees_trans (mem_subtrees_of_mem_descendants
        (mem_descendants_of_mem_children (by simp [children]))) hcall
    have hnamed := h _ hmember
    rw [hcallee] at hnamed
    cases property with
    | identifier name => exact ⟨object, name, hcallee⟩
    | _ => cases hnamed
  rw [forms_eq, Rule.step]
  have hagree :=
    Rule.agree_nestedCalls (namesMethods_forms scope) (followsCalls_forms scope) hlinks
  refine hagree.wrap ?_
  exact fun form nested hform => ⟨form, rfl, hform⟩

/-- The callee of the call `this.f(1).g(a[0]()).h()`, a chain of three calls that starts at
`this`. -/
def receiverChain : Node :=
  .memberExpression (.callExpression (.memberExpression (.callExpression
    (.memberExpression .thisExpression (.identifier "f") false) [.numericLiteral "1"])
    (.identifier "g") false) [.callExpression (.memberExpression (.identifier "a")
      (.numericLiteral "0") true) []]) (.identifier "h") false

/-- The form of a call of `receiverChain`, expanded. -/
def receiverChainNested : Form :=
  .list [.symbol ".h", .list [.symbol ".g",
    .thisAs "this" (.list [.symbol ".f", .symbol "this", .number "1"]),
    .list [.call "aget" [.symbol "a", .number "0"]]]]

/-- The chain is threaded, and expanded it is the nested one. -/
theorem forms_receiverChain :
    (∀ m ∈ (Node.callExpression receiverChain []).subtrees, m.hasNamedProperty) ∧
      (Node.callExpression receiverChain []).forms (fun _ => false) = .ok [.call "->" [
        .thisAs "this" (.list [.symbol ".f", .symbol "this", .number "1"]),
        .list [.symbol ".g", .list [.call "aget" [.symbol "a", .number "0"]]],
        .list [.symbol ".h"]]] ∧
      Rule.nestedCalls (fun m context => m.forms (fun _ => false) context)
        (.callExpression receiverChain []) = .ok receiverChainNested ∧
      Agree (fun forms nested => ∃ form, forms = [form] ∧
          if isPipeline (Node.callExpression receiverChain []).callChain then
            form.head? = some "->" ∧ form.expand = nested
          else form = nested)
        ((Node.callExpression receiverChain []).forms fun _ => false)
        (Rule.nestedCalls (fun m context => m.forms (fun _ => false) context)
          (.callExpression receiverChain [])) := by
  have hnamed : ∀ m ∈ (Node.callExpression receiverChain []).subtrees, m.hasNamedProperty := by
    decide
  exact ⟨hnamed, rfl, rfl, forms_callExpression _ _ _ hnamed .value⟩

end Node

end ScriptForms
