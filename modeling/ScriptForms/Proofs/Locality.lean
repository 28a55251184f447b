import ScriptForms.Proofs.Node.Chain
import ScriptForms.Proofs.Outcome
import ScriptForms.Rule.Convert

/-!
# Rules look at smaller trees only

A rule sees a tree through the conversion of the trees below it. Two conversions that are the same
on smaller trees are therefore the same after one more step, and a conversion gives the same forms
at every depth that the tree fits into. This holds of all trees, whether or not they follow the
grammar.

* `Rule.SameBelow`: conversions that are the same on all trees below a size.
* `Rule.step_congr`: one step of such conversions.
* `Rule.convert_eq_convert`: conversions of enough depth.
* `Node.forms_eq`, `Node.forms_eq_convert`: the forms of a tree from the forms of smaller ones.
-/

namespace ScriptForms

open Node

namespace Rule

variable {visit₁ visit₂ : Visit} {size : Nat}

/-- The two conversions are the same on all trees below a size. -/
def SameBelow (visit₁ visit₂ : Visit) (size : Nat) : Prop :=
  ∀ node : Node, node.size < size → ∀ context, visit₁ node context = visit₂ node context

theorem SameBelow.one (h : SameBelow visit₁ visit₂ size) {node : Node} (hn : node.size < size)
    (context : Context) : visit₁.one node context = visit₂.one node context := by
  rw [Visit.one, Visit.one, h node hn]

theorem SameBelow.block (h : SameBelow visit₁ visit₂ size) {node : Node} (hn : node.size < size) :
    visit₁.block node = visit₂.block node := by
  rw [Visit.block, Visit.block, h node hn]

/-- Every node below a tree of the size is smaller. -/
theorem size_lt_of_child {node : Node} (hn : node.size ≤ size) (child : Node)
    (hc : child ∈ node.children) : child.size < size :=
  Nat.lt_of_lt_of_le (size_of_child hc) hn

theorem size_lt_of_descendant {m node : Node} (hn : node.size ≤ size)
    (hm : m ∈ node.descendants) : m.size < size :=
  Nat.lt_of_lt_of_le (size_lt_of_mem_descendants hm) hn

/-! ### Functions and definitions -/

theorem function_congr (h : SameBelow visit₁ visit₂ size) (head : String) (name : Option Form)
    (params : List Node) {body : Node} (hb : body.size < size) :
    function visit₁ head name params body = function visit₂ head name params body := by
  simp only [function, h.block hb]

theorem declarator_congr (h : SameBelow visit₁ visit₂ size) {node : Node}
    (hn : node.size ≤ size) : declarator visit₁ node = declarator visit₂ node := by
  cases node with
  | variableDeclarator id init =>
    have hinit : ∀ m ∈ init, m.size < size := fun m hm =>
      size_lt_of_child hn m (by simp_all [children])
    unfold declarator
    refine bind_congr fun name => ?_
    split
    · rename_i body
      exact function_congr h _ _ _
        (size_lt_of_child (Nat.le_of_lt (hinit _ rfl)) body (by simp [children]))
    · rename_i body
      exact function_congr h _ _ _
        (size_lt_of_child (Nat.le_of_lt (hinit _ rfl)) body (by simp [children]))
    · rename_i init _ _
      rw [h.one (hinit init rfl)]
    · rfl
  | _ => rfl

/-! ### Statement lists -/

theorem binding_congr (h : SameBelow visit₁ visit₂ size) {node : Node} (hn : node.size ≤ size) :
    binding visit₁ node = binding visit₂ node := by
  cases node with
  | variableDeclarator id init =>
    cases init with
    | none => rfl
    | some init => simp only [binding, h.one (size_lt_of_child hn init (by simp [children]))]
  | _ => rfl

theorem bindings_congr (h : SameBelow visit₁ visit₂ size) {node : Node} (hn : node.size ≤ size) :
    bindings visit₁ node = bindings visit₂ node := by
  cases node with
  | variableDeclaration kind declarations =>
    have hd : ∀ d ∈ declarations, binding visit₁ d = binding visit₂ d := fun d hd =>
      binding_congr h (Nat.le_of_lt (size_lt_of_child hn d hd))
    simp only [bindings, mapM_congr hd]
  | _ => rfl

theorem statements_congr (h : SameBelow visit₁ visit₂ size) (body : List Node)
    (hb : ∀ s ∈ body, s.size < size) : statements visit₁ body = statements visit₂ body := by
  have hsplit : splitStatements visit₁ body = splitStatements visit₂ body := by
    induction body with
    | nil => rfl
    | cons statement rest ih =>
      rw [List.forall_mem_cons] at hb
      simp only [splitStatements, bindings_congr h (Nat.le_of_lt hb.1), h statement hb.1, ih hb.2]
  rw [statements, statements, hsplit]

theorem program_congr (h : SameBelow visit₁ visit₂ size) (body : List Node)
    (hb : ∀ s ∈ body, s.size < size) : program visit₁ body = program visit₂ body := by
  unfold program
  rw [mapM_congr fun s hs => by rw [h s (hb s hs)]]

/-! ### Conditions -/

theorem branchTest_congr (h : SameBelow visit₁ visit₂ size) {branch : Branch}
    (ht : ∀ test ∈ branch.test, test.size < size) :
    branchTest visit₁ branch = branchTest visit₂ branch := by
  unfold branchTest
  split
  · rename_i test htest
    exact h.one (ht test htest) .value
  · rfl

theorem branchPair_congr (h : SameBelow visit₁ visit₂ size) {branch : Branch}
    (hb : branch.body.size < size) (ht : ∀ test ∈ branch.test, test.size < size) :
    branchPair visit₁ branch = branchPair visit₂ branch := by
  rw [branchPair, branchPair, branchTest_congr h ht, h.block hb]

/-- The branches of a chain of conditions are smaller than the chain. -/
theorem branches_size {test consequent : Node} {alternate : Option Node} {size : Nat}
    (hn : (Node.ifStatement test consequent alternate).size ≤ size) :
    ∀ branch ∈ (Node.ifStatement test consequent alternate).branches,
      branch.body.size < size ∧ ∀ t ∈ branch.test, t.size < size := by
  -- The `else` part at the end of the chain is no `if`, so that it is not the chain itself.
  refine branches_forall
    (p := fun m => m.size ≤ size ∧
      ((∀ test consequent alternate, m ≠ .ifStatement test consequent alternate) → m.size < size))
    (fun t c a hp => ?_) (fun m hne hp => hp.2 hne) ⟨hn, fun hne => absurd rfl (hne _ _ _)⟩
  have hchild : ∀ k ∈ (Node.ifStatement t c a).children, k.size < size := fun k hk =>
    size_lt_of_child hp.1 k hk
  refine ⟨hchild t (by simp [children]), hchild c (by simp [children]), fun k hk => ?_⟩
  have hk : k.size < size := hchild k (by simp_all [children])
  exact ⟨Nat.le_of_lt hk, fun _ => hk⟩

theorem ifStatement_congr (h : SameBelow visit₁ visit₂ size) {test consequent : Node}
    {alternate : Option Node} (hn : (Node.ifStatement test consequent alternate).size ≤ size) :
    ifStatement visit₁ (.ifStatement test consequent alternate) =
      ifStatement visit₂ (.ifStatement test consequent alternate) := by
  have hsize := branches_size hn
  unfold ifStatement
  split
  · rename_i only heq
    obtain ⟨hb, ht⟩ := hsize only (by simp [heq])
    rw [branchTest_congr h ht, h.block hb]
  · rename_i first other heq
    obtain ⟨hb, ht⟩ := hsize first (by simp [heq])
    obtain ⟨ho, -⟩ := hsize ⟨none, other⟩ (by simp [heq])
    rw [branchPair_congr h hb ht, h.block ho]
  · rw [mapM_congr fun branch hm => branchPair_congr h (hsize branch hm).1 (hsize branch hm).2]

/-! ### Switches -/

/-- The statements of a clause are smaller than the clause. -/
theorem clauseBody_size {test : Option Node} {consequent : List Node} {size : Nat}
    (hn : (Node.switchCase test consequent).size ≤ size) :
    ∀ s ∈ clauseBody consequent, s.size < size := by
  have hc : ∀ b ∈ consequent, b.size < size := fun b hb =>
    size_lt_of_child hn b (by simp [children, hb])
  intro s hs
  refine openLastBlock_forall (p := fun s => s.size < size) hc (fun b hb m hm => ?_) s
    (mem_openLastBlock_of_mem_clauseBody hs)
  exact Nat.lt_of_le_of_lt (size_le_of_mem_subtrees (openBlock_mem b m hm)) (hc b hb)

theorem clauses_congr (h : SameBelow visit₁ visit₂ size) {nodes : List Node}
    (hn : ∀ n ∈ nodes, n.size ≤ size) (clause : Nat) (tests : List Form) :
    clauses visit₁ clause tests nodes = clauses visit₂ clause tests nodes := by
  induction nodes generalizing clause tests with
  | nil => cases tests <;> rfl
  | cons node rest ih =>
    rw [List.forall_mem_cons] at hn
    have ih := ih hn.2
    cases node with
    | switchCase test consequent =>
      have htest : ∀ t ∈ test, visit₁.one t = visit₂.one t := fun t ht =>
        h.one (size_lt_of_child hn.1 t (by simp_all [children])) .value
      have hbody := statements_congr h _ (clauseBody_size hn.1)
      cases test with
      | none =>
        cases consequent with
        | nil => simp only [clauses]
        | cons first others => simp only [clauses, hbody, ih]
      | some test =>
        cases consequent with
        | nil => simp only [clauses, htest test rfl, ih]
        | cons first others => simp only [clauses, htest test rfl, hbody, ih]
    | _ => simp only [clauses]

theorem switchStatement_congr (h : SameBelow visit₁ visit₂ size) {discriminant : Node}
    {cases : List Node} (hn : (Node.switchStatement discriminant cases).size ≤ size) :
    switchStatement visit₁ discriminant cases = switchStatement visit₂ discriminant cases := by
  have hcases : ∀ n ∈ cases, n.size ≤ size := fun n hm =>
    Nat.le_of_lt (size_lt_of_child hn n (by simp [children, hm]))
  simp only [switchStatement, h.one (size_lt_of_child hn discriminant (by simp [children])),
    clauses_congr h hcases]

/-! ### Exceptions -/

theorem catchClause_congr (h : SameBelow visit₁ visit₂ size) {node : Node}
    (hn : node.size ≤ size) : catchClause visit₁ node = catchClause visit₂ node := by
  cases node with
  | catchClause param body =>
    simp only [catchClause, h.block (size_lt_of_child hn body (by simp [children]))]
  | _ => rfl

theorem tryStatement_congr (h : SameBelow visit₁ visit₂ size) {block : Node}
    {handler finalizer : Option Node}
    (hn : (Node.tryStatement block handler finalizer).size ≤ size) :
    tryStatement visit₁ block handler finalizer = tryStatement visit₂ block handler finalizer := by
  have hchild : ∀ m ∈ handler.toList ++ finalizer.toList, m.size < size := fun m hm =>
    size_lt_of_child hn m (List.mem_cons_of_mem _ hm)
  rw [List.forall_mem_append] at hchild
  have hhandler : handler.toList.mapM (catchClause visit₁) =
      handler.toList.mapM (catchClause visit₂) :=
    mapM_congr fun m hm => catchClause_congr h (Nat.le_of_lt (hchild.1 m hm))
  have hfinalizer : (finalizer.toList.mapM fun node =>
        return Form.call "finally" (← visit₁.block node) : Except Fault (List Form)) =
      finalizer.toList.mapM fun node => return Form.call "finally" (← visit₂.block node) :=
    mapM_congr fun m hm => by rw [h.block (hchild.2 m hm)]
  rw [tryStatement, tryStatement, h.block (size_lt_of_child hn block (by simp [children])),
    hhandler, hfinalizer]

/-! ### Literals -/

theorem template_congr (h : SameBelow visit₁ visit₂ size) (texts : List String)
    (expressions : List Node) (hn : ∀ e ∈ expressions, e.size < size) :
    template visit₁ texts expressions = template visit₂ texts expressions := by
  have hitems : templateItems visit₁ texts expressions =
      templateItems visit₂ texts expressions := by
    induction texts generalizing expressions with
    | nil => rfl
    | cons text texts ih =>
      cases expressions with
      | nil => simp only [templateItems, ih [] hn]
      | cons expression expressions =>
        rw [List.forall_mem_cons] at hn
        simp only [templateItems, h.one hn.1, ih expressions hn.2]
  rw [template, template, hitems]

theorem array_congr (h : SameBelow visit₁ visit₂ size) (elements : List Node)
    (hn : ∀ e ∈ elements, e.size < size) : array visit₁ elements = array visit₂ elements := by
  have helement : ∀ e ∈ elements, ∀ parts,
      arrayElement visit₁ parts e = arrayElement visit₂ parts e := by
    intro e he parts
    unfold arrayElement
    split
    · rename_i argument
      rw [h.one (size_lt_of_child (Nat.le_of_lt (hn _ he)) argument (by simp [children]))]
    · rw [h.one (hn e he)]
  rw [array, array, foldlM_congr helement]

theorem objectEntry_congr (h : SameBelow visit₁ visit₂ size) {member : Node}
    (hn : member.size ≤ size) : objectEntry visit₁ member = objectEntry visit₂ member := by
  cases member with
  | objectProperty key value computed shorthand =>
    simp only [objectEntry, h.one (size_lt_of_child hn value (by simp [children]))]
  | objectMethod kind key params body computed =>
    simp only [objectEntry, function_congr h _ _ _ (size_lt_of_child hn body (by simp [children]))]
  | _ => rfl

theorem object_congr (h : SameBelow visit₁ visit₂ size) (properties : List Node)
    (hn : ∀ p ∈ properties, p.size < size) :
    object visit₁ properties = object visit₂ properties := by
  have hmember : ∀ p ∈ properties, ∀ parts,
      objectMember visit₁ parts p = objectMember visit₂ parts p := by
    intro p hp parts
    unfold objectMember
    split
    · rename_i argument
      rw [h.one (size_lt_of_child (Nat.le_of_lt (hn _ hp)) argument (by simp [children]))]
    · rw [objectEntry_congr h (Nat.le_of_lt (hn p hp))]
  rw [object, object, foldlM_congr hmember]

/-! ### Accesses -/

theorem getter_congr (h : SameBelow visit₁ visit₂ size) {object property : Node}
    (ho : object.size < size) (hp : property.size < size) :
    getter visit₁ object property = getter visit₂ object property := by
  rw [getter, getter, h.one hp, h.one ho]

theorem element_congr (h : SameBelow visit₁ visit₂ size) {object key : Node}
    (ho : object.size < size) (hk : key.size < size) :
    element visit₁ object key = element visit₂ object key := by
  rw [element, element, h.one ho, h.one hk]

theorem plainMember_congr (h : SameBelow visit₁ visit₂ size) {node : Node}
    (hn : node.size ≤ size) : plainMember visit₁ node = plainMember visit₂ node := by
  unfold plainMember
  split
  · exact element_congr h (size_lt_of_child hn _ (by simp [children]))
      (size_lt_of_child hn _ (by simp [children]))
  · have htarget := size_lt_of_descendant hn (dotChain_target_descendants _ _)
    have hproperty := fun p hp => size_lt_of_descendant hn (dotChain_properties_mem _ p hp)
    unfold dotted
    split
    · exact getter_congr h htarget (hproperty _ (by simp_all))
    · rw [h.one htarget, mapM_congr fun p hp => h.one (hproperty p hp) (.named .getter)]
  · rfl

theorem member_congr (h : SameBelow visit₁ visit₂ size) {node : Node} (hn : node.size ≤ size) :
    member visit₁ node = member visit₂ node := by
  unfold member
  split
  · rw [plainMember_congr h (by rwa [size_rebindReceiver])]
  · exact plainMember_congr h hn

/-! ### Assignments -/

theorem assignTo_congr (h : SameBelow visit₁ visit₂ size) (operator : String) {target : Node}
    (ht : target.size < size) (value : Form) :
    assignTo visit₁ operator target value = assignTo visit₂ operator target value := by
  have hchild : ∀ m ∈ target.children, m.size < size := size_lt_of_child (Nat.le_of_lt ht)
  unfold assignTo
  split
  · rw [h.one ht]
  · rename_i object property
    rw [getter_congr h (hchild object (by simp [children])) (hchild property (by simp [children]))]
  · rename_i object key
    rw [h.one (hchild object (by simp [children])), h.one (hchild key (by simp [children]))]
  · rfl

theorem assignment_congr (h : SameBelow visit₁ visit₂ size) (operator : String) {left right : Node}
    (hl : left.size < size) (hr : right.size < size) :
    assignment visit₁ operator left right = assignment visit₂ operator left right := by
  have hplain : ∀ target : Node, target.size < size →
      plainAssignment visit₁ operator left target right =
        plainAssignment visit₂ operator left target right := by
    intro target ht
    simp only [plainAssignment, h.one hr, assignTo_congr h operator ht]
  unfold assignment
  split
  · rw [hplain _ (by rwa [size_rebindReceiver])]
  · exact hplain left hl

theorem unary_congr (h : SameBelow visit₁ visit₂ size) (operator : String) {argument : Node}
    (ha : argument.size < size) :
    unary visit₁ operator argument = unary visit₂ operator argument := by
  have hchild : ∀ m ∈ argument.children, m.size < size := size_lt_of_child (Nat.le_of_lt ha)
  unfold unary
  rw [h.one ha]
  split
  · rfl
  · split
    · rename_i object name
      rw [h.one (hchild object (by simp [children]))]
    · rename_i object key computed _
      rw [h.one (hchild object (by simp [children])), h.one (hchild key (by simp [children]))]
    · rfl

/-! ### Calls -/

theorem arguments_congr (h : SameBelow visit₁ visit₂ size) {nodes : List Node}
    (hn : ∀ n ∈ nodes, n.size < size) : arguments visit₁ nodes = arguments visit₂ nodes := by
  refine mapM_congr fun n hm => ?_
  unfold argument
  split
  · rfl
  · exact h.one (hn n hm) .value

theorem call_congr (h : SameBelow visit₁ visit₂ size) {callee : Node} {nodes : List Node}
    (hn : (Node.callExpression callee nodes).size ≤ size) :
    call visit₁ callee nodes = call visit₂ callee nodes := by
  have hnodes : ∀ n ∈ nodes, n.size < size := fun n hm =>
    size_lt_of_child hn n (by simp [children, hm])
  have hplain : ∀ node : Node, node.size < size →
      plainCall visit₁ node nodes = plainCall visit₂ node nodes := by
    intro node hnode
    have hchild : ∀ m ∈ node.children, m.size < size := size_lt_of_child (Nat.le_of_lt hnode)
    have hfront : callFront visit₁ node = callFront visit₂ node := by
      unfold callFront
      split
      · rename_i object property
        rw [h.one (hchild object (by simp [children])),
          h.one (hchild property (by simp [children]))]
      · rename_i object key
        rw [element_congr h (hchild object (by simp [children])) (hchild key (by simp [children]))]
      · rw [h.one hnode]
    rw [plainCall, plainCall, hfront, arguments_congr h hnodes]
  have hcallee : callee.size < size := size_lt_of_child hn callee (by simp [children])
  unfold call
  split
  · rw [hplain _ (by rwa [size_rebindReceiver])]
  · exact hplain callee hcallee

theorem stage_congr (h : SameBelow visit₁ visit₂ size) {link : CallLink}
    (hn : (Node.callExpression link.callee link.arguments).size ≤ size) :
    stage visit₁ link = stage visit₂ link := by
  have hnodes : ∀ n ∈ link.arguments, n.size < size := fun n hm =>
    size_lt_of_child hn n (by simp [children, hm])
  have hcallee : link.callee.size < size := size_lt_of_child hn _ (by simp [children])
  unfold stage
  split
  · rename_i object property computed hm
    rw [hm] at hcallee
    have hproperty := size_lt_of_child (Nat.le_of_lt hcallee) property (by simp [children])
    rw [h.one hproperty, arguments_congr h hnodes]
  · rfl

theorem callExpression_congr (h : SameBelow visit₁ visit₂ size) {callee : Node}
    {nodes : List Node} (hn : (Node.callExpression callee nodes).size ≤ size) :
    callExpression visit₁ callee nodes = callExpression visit₂ callee nodes := by
  have hlink : ∀ link ∈ (Node.callExpression callee nodes).callChain,
      (Node.callExpression link.callee link.arguments).size ≤ size := fun link hl =>
    Nat.le_trans (size_le_of_mem_subtrees (callChain_mem hl)) hn
  unfold callExpression
  dsimp only
  split
  · rename_i first others _ hlinks
    rw [hlinks, List.forall_mem_cons] at hlink
    rw [call_congr h hlink.1, mapM_congr fun link hl => stage_congr h (hlink.2 link hl)]
  · exact call_congr h hn

theorem newExpression_congr (h : SameBelow visit₁ visit₂ size) {callee : Node} {nodes : List Node}
    (hn : (Node.newExpression callee nodes).size ≤ size) :
    newExpression visit₁ callee nodes = newExpression visit₂ callee nodes := by
  have hnodes : ∀ n ∈ nodes, n.size < size := fun n hm =>
    size_lt_of_child hn n (by simp [children, hm])
  rw [newExpression, newExpression, h.one (size_lt_of_child hn callee (by simp [children])),
    arguments_congr h hnodes]

/-! ### Elements -/

theorem attributeEntry_congr (h : SameBelow visit₁ visit₂ size) {node : Node}
    (hn : node.size ≤ size) : attributeEntry visit₁ node = attributeEntry visit₂ node := by
  cases node with
  | jsxAttribute name value =>
    have hvalue : attributeValue visit₁ value = attributeValue visit₂ value := by
      cases value with
      | none => rfl
      | some value =>
        simp only [attributeValue, h.one (size_lt_of_child hn value (by simp [children]))]
    simp only [attributeEntry, hvalue, h.one (size_lt_of_child hn name (by simp [children]))]
  | _ => rfl

theorem jsxElement_congr (h : SameBelow visit₁ visit₂ size) {opening : Node} {items : List Node}
    (hn : (Node.jsxElement opening items).size ≤ size) :
    jsxElement visit₁ opening items = jsxElement visit₂ opening items := by
  have hitems : items.mapM (visit₁ · .value) = items.mapM (visit₂ · .value) :=
    mapM_congr fun m hm => h m (size_lt_of_child hn m (by simp [children, hm])) .value
  have hopening : opening.size < size := size_lt_of_child hn opening (by simp [children])
  cases opening with
  | jsxOpeningElement name attributes selfClosing =>
    have hattributes : attributeMap visit₁ attributes = attributeMap visit₂ attributes := by
      have hsize : ∀ a ∈ attributes, a.size < size := fun a ha =>
        size_lt_of_child (Nat.le_of_lt hopening) a (by simp [children, ha])
      rw [attributeMap, attributeMap,
        mapM_congr fun a ha => attributeEntry_congr h (Nat.le_of_lt (hsize a ha))]
    have hname := size_lt_of_child (Nat.le_of_lt hopening) name (by simp [children])
    simp only [jsxElement, h.one hname, hattributes, hitems]
  | _ => rfl

/-! ### Exports -/

theorem exportDefault_congr (h : SameBelow visit₁ visit₂ size) {declaration : Node}
    (hd : declaration.size < size) :
    exportDefault visit₁ declaration = exportDefault visit₂ declaration := by
  unfold exportDefault
  rw [h.one hd]

theorem exportNamed_congr (h : SameBelow visit₁ visit₂ size) (declaration : Option Node)
    (specifiers : List Node) (hd : ∀ d ∈ declaration, d.size < size) :
    exportNamed visit₁ declaration specifiers = exportNamed visit₂ declaration specifiers := by
  cases declaration with
  | none => rfl
  | some declaration => simp only [exportNamed, h declaration (hd declaration rfl)]

/-! ### All rules -/

/-- Conversions that are the same on smaller trees are the same after one step. -/
theorem step_congr (scope : Scope) {node : Node} (h : SameBelow visit₁ visit₂ node.size)
    (context : Context) : step scope visit₁ node context = step scope visit₂ node context := by
  have hchild : ∀ m ∈ node.children, m.size < node.size := fun m hm => size_of_child hm
  cases node with
  | program body => simp only [step, program_congr h body hchild]
  | expressionStatement expression comments =>
    simp only [step, h expression (hchild expression (by simp [children]))]
  | blockStatement body => simp only [step, statements_congr h body hchild]
  | returnStatement argument =>
    cases argument with
    | none => rfl
    | some argument => simp only [step, h argument (hchild argument (by simp [children]))]
  | throwStatement argument => simp only [step, h.one (hchild argument (by simp [children]))]
  | ifStatement test consequent alternate => simp only [step, ifStatement_congr h (Nat.le_refl _)]
  | switchStatement discriminant cases =>
    simp only [step, switchStatement_congr h (Nat.le_refl _)]
  | tryStatement block handler finalizer =>
    simp only [step, tryStatement_congr h (Nat.le_refl _)]
  | variableDeclaration kind declarations =>
    exact mapM_congr fun d hd => declarator_congr h (Nat.le_of_lt (hchild d hd))
  | variableDeclarator id init => simp only [step, declarator_congr h (Nat.le_refl _)]
  | functionDeclaration id params body | functionExpression id params body
  | arrowFunctionExpression params body =>
    simp only [step, function_congr h _ _ _ (hchild body (by simp [children]))]
  | exportDefaultDeclaration declaration =>
    simp only [step, exportDefault_congr h (hchild declaration (by simp [children]))]
  | exportNamedDeclaration declaration specifiers =>
    exact exportNamed_congr h declaration specifiers fun d hd => hchild d (by simp_all [children])
  | templateLiteral texts expressions => simp only [step, template_congr h texts expressions hchild]
  | arrayExpression elements => simp only [step, array_congr h elements hchild]
  | objectExpression properties => simp only [step, object_congr h properties hchild]
  | unaryExpression operator argument =>
    simp only [step, unary_congr h operator (hchild argument (by simp [children]))]
  | binaryExpression operator left right | logicalExpression operator left right =>
    simp only [step, h.one (hchild left (by simp [children])),
      h.one (hchild right (by simp [children]))]
  | assignmentExpression operator left right =>
    simp only [step, assignment_congr h operator (hchild left (by simp [children]))
      (hchild right (by simp [children]))]
  | conditionalExpression test consequent alternate =>
    simp only [step, h.one (hchild test (by simp [children])),
      h.one (hchild consequent (by simp [children])), h.one (hchild alternate (by simp [children]))]
  | callExpression callee arguments =>
    simp only [step, callExpression_congr h (Nat.le_refl _)]
  | newExpression callee arguments => simp only [step, newExpression_congr h (Nat.le_refl _)]
  | memberExpression object property computed =>
    simp only [step, member_congr h (Nat.le_refl _)]
  | jsxElement opening items => simp only [step, jsxElement_congr h (Nat.le_refl _)]
  | jsxExpressionContainer expression =>
    cases expression with
    | none => rfl
    | some expression => simp only [step, h expression (hchild expression (by simp [children]))]
  | _ => rfl

/-- A conversion gives the same forms at every depth that the tree fits into. -/
theorem convert_eq_convert (scope : Scope) {node : Node} {d e : Nat} (hd : node.size ≤ d)
    (he : node.size ≤ e) (context : Context) :
    convert scope d node context = convert scope e node context := by
  refine congrFun (depth_congr (fun d e node h => ?_) hd he) context
  funext context
  rw [convert, convert]
  exact step_congr scope (fun m hm context => congrFun (h m hm) context) context

end Rule

namespace Node

/-- The forms of a tree, from a conversion of any depth that the tree fits into. -/
theorem forms_eq_convert (scope : Scope) {node : Node} {depth : Nat} (h : node.size ≤ depth)
    (context : Context) : node.forms scope context = Rule.convert scope depth node context :=
  Rule.convert_eq_convert scope (Nat.le_refl _) h context

/-- The forms of a tree are those that its rule makes of the forms of smaller trees. -/
theorem forms_eq (scope : Scope) (node : Node) (context : Context) :
    node.forms scope context = Rule.step scope (fun m c => m.forms scope c) node context := by
  rw [forms_eq_convert scope (Nat.le_succ node.size), Rule.convert]
  refine Rule.step_congr scope (fun m hm c => ?_) context
  exact (forms_eq_convert scope (Nat.le_of_lt hm) c).symm

end Node

end ScriptForms
