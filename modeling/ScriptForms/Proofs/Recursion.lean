import ScriptForms.Proofs.Form.Free
import ScriptForms.Proofs.Nesting
import ScriptForms.Proofs.Node.Free

/-!
# Functions that refer to variables of their own list

A function may refer to any variable of the statement list it stands in: it is called later, when
all of them are there. The forms of a list bind the variables one after the other, and the value of
a variable sees the ones in front of it only. So a function that is the value of a variable can use
the variables in front of it; the variable itself and the ones behind it are out of its reach, and
their names mean something outside of the list.

* `Form.resolve?`: the binding that a name means inside the value of another.
* `Node.Reference`: a function of a list refers to a variable of the list.
* `Node.KeepsFunctions`: functions that refer to variables not in front of them reach these.
* `Node.forms_localFunctions`: which variables the functions of a list reach.
-/

namespace ScriptForms

open Node

namespace Form

/-! ### What a name means -/

/-- The name that a function has for itself. -/
def selfName? : Form → Option String
  | .list (.symbol "fn" :: .symbol self :: .vector _ :: _) => some self
  | _ => none

/-- The name that a binding of a list binds. -/
def boundName? (bound : List (Form × Form)) (i : Nat) : Option String :=
  bound[i]?.bind fun pair => pair.1.symbol?

/-- The last binding in front of a binding that has a given name. -/
def lastBefore? (bound : List (Form × Form)) (name : String) : Nat → Option Nat
  | 0 => none
  | i + 1 => if boundName? bound i = some name then some i else lastBefore? bound name i

/-- The binding that a name means inside the value of binding number `i`: this binding itself if its
value is a function that has the name for itself, and the last one in front of it with the name
otherwise. -/
def resolve? (bound : List (Form × Form)) (i : Nat) (name : String) : Option Nat :=
  if (bound[i]?.bind fun pair => pair.2.selfName?) = some name then some i
  else lastBefore? bound name i

variable {name : String} {bound pairs : List (Form × Form)} {forms tail : List Form} {i j : Nat}

theorem lastBefore?_eq_some : lastBefore? bound name i = some j ↔
    j < i ∧ boundName? bound j = some name ∧
      ∀ k, j < k → k < i → boundName? bound k ≠ some name := by
  induction i with
  | zero => simp [lastBefore?]
  | succ i ih =>
    rw [lastBefore?]
    by_cases hi : boundName? bound i = some name
    · rw [if_pos hi, Option.some.injEq]
      constructor
      · rintro rfl
        exact ⟨Nat.lt_succ_self i, hi, fun k hjk hki => by omega⟩
      · rintro ⟨hj, -, hlast⟩
        by_contra hne
        exact hlast i (by omega) (Nat.lt_succ_self i) hi
    · rw [if_neg hi, ih]
      constructor
      · rintro ⟨hj, hname, hlast⟩
        refine ⟨by omega, hname, fun k hjk hki => ?_⟩
        rcases Nat.lt_succ_iff_lt_or_eq.1 hki with hki | rfl
        · exact hlast k hjk hki
        · exact hi
      · rintro ⟨hj, hname, hlast⟩
        have hne : j ≠ i := fun heq => hi (heq ▸ hname)
        exact ⟨by omega, hname, fun k hjk hki => hlast k hjk (by omega)⟩

theorem lastBefore?_eq_none :
    lastBefore? bound name i = none ↔ ∀ k < i, boundName? bound k ≠ some name := by
  induction i with
  | zero => simp [lastBefore?]
  | succ i ih =>
    rw [lastBefore?, Nat.forall_lt_succ_right]
    by_cases hi : boundName? bound i = some name
    · simp [hi]
    · simp [hi, ih]

/-! ### Names that mean nothing in a list -/

theorem refersTo_letForm (name : String) (pairs : List (Form × Form)) (body : List Form) :
    (letForm pairs body).refersTo name =
      letRefersTo name (body.any (refersTo name)) (bindingItems pairs) := by
  simp [letForm, call, refersTo]

/-- What is free behind some bindings, or in the value of one of them, is free in the `let` of these
bindings as long as nothing in front binds it. -/
theorem letRefersTo_of_free {inBody : Bool}
    (hsymbols : ∀ pair ∈ pairs, ∃ text, pair.1 = .symbol text)
    (hnames : ∀ k < i, boundName? pairs k ≠ some name)
    (h : (∃ pair, pairs[i]? = some pair ∧ pair.2.refersTo name) ∨ pairs.length ≤ i ∧ inBody) :
    letRefersTo name inBody (bindingItems pairs) := by
  induction pairs generalizing i with
  | nil =>
    rcases h with ⟨pair, hpair, -⟩ | ⟨-, hbody⟩
    · cases hpair
    · simpa [bindingItems, letRefersTo] using hbody
  | cons first pairs ih =>
    obtain ⟨bound, value⟩ := first
    obtain ⟨⟨text, hfirst⟩, hrest⟩ := List.forall_mem_cons.1 hsymbols
    obtain rfl : bound = .symbol text := hfirst
    rw [show bindingItems ((.symbol text, value) :: pairs) =
      .symbol text :: value :: bindingItems pairs from rfl, letRefersTo]
    cases i with
    | zero =>
      rcases h with ⟨pair, hpair, hvalue⟩ | ⟨hlength, -⟩
      · obtain rfl : (Form.symbol text, value) = pair := Option.some.inj hpair
        simp [show value.refersTo name from hvalue]
      · cases hlength
    | succ i =>
      have hne : text ≠ name := by
        rintro rfl
        exact hnames 0 (Nat.succ_pos i) rfl
      have hbehind : letRefersTo name inBody (bindingItems pairs) := by
        refine ih hrest (fun k hk => hnames (k + 1) (Nat.succ_lt_succ hk)) ?_
        exact h.imp_right (And.imp_left Nat.le_of_succ_le_succ)
      simp [hne, hbehind]

/-- A name that is free in the value of a binding and that nothing in front of it binds is free in
the whole. -/
theorem Reaches.exists_refersTo (h : Reaches forms bound tail)
    (hsymbols : ∀ pair ∈ bound, ∃ text, pair.1 = .symbol text)
    {pair : Form × Form} (hpair : bound[i]? = some pair) (hvalue : pair.2.refersTo name)
    (hnames : ∀ k < i, boundName? bound k ≠ some name) :
    ∃ form ∈ forms, form.refersTo name := by
  induction h generalizing i with
  | here front tail => cases hpair
  | @under body tail bound front pairs h ih =>
    refine ⟨letForm pairs body, by simp, ?_⟩
    obtain ⟨hpairs, hbound⟩ := List.forall_mem_append.1 hsymbols
    have hfront : ∀ k < pairs.length, boundName? (pairs ++ bound) k = boundName? pairs k :=
      fun k hk => by rw [boundName?, boundName?, List.getElem?_append_left hk]
    rw [refersTo_letForm]
    by_cases hi : i < pairs.length
    · rw [List.getElem?_append_left hi] at hpair
      refine letRefersTo_of_free hpairs (fun k hk => ?_) (.inl ⟨pair, hpair, hvalue⟩)
      rw [← hfront k (by omega)]
      exact hnames k hk
    · -- The binding stands further inside, behind all bindings of this `let`.
      rw [not_lt] at hi
      rw [List.getElem?_append_right hi] at hpair
      have hinner : ∃ form ∈ body, form.refersTo name := by
        refine ih hbound hpair fun k hk => ?_
        have hback := hnames (k + pairs.length) (by omega)
        rwa [boundName?, List.getElem?_append_right (by omega), Nat.add_sub_cancel] at hback
      refine letRefersTo_of_free hpairs (fun k hk => ?_) (.inr ⟨le_rfl, ?_⟩)
      · rw [← hfront k hk]
        exact hnames k (by omega)
      · exact List.any_eq_true.2 hinner

end Form

namespace Node

/-- Whether an expression is a function. -/
def isFunction : Node → Bool
  | .functionExpression .. | .arrowFunctionExpression .. => true
  | _ => false

/-- The name that a declarator of a list declares. -/
def nameAt? (declarators : List Node) (i : Nat) : Option String :=
  declarators[i]?.bind declaredName?

/-- A function that is the initializer of declarator number `i` refers to the variable of declarator
number `j`. -/
structure Reference (declarators : List Node) (i j : Nat) (name : String) : Prop where
  function : ∃ id init, declarators[i]? = some (.variableDeclarator id (some init)) ∧
    init.isFunction ∧ init.refersTo name
  target : nameAt? declarators j = some name

end Node

namespace Rule

open Form

variable {scope : Scope} {visit : Visit} {body : List Node} {bound : List (Form × Form)}

/-- A declarator binds the symbol of the name that it declares. -/
theorem letPair_name {node : Node} {pair : Form × Form} (h : letPair visit node = .ok pair) :
    ∃ name, node.declaredName? = some name ∧ pair.1 = .symbol name := by
  cases node with
  | variableDeclarator id init =>
    rw [letPair, bind_eq_ok] at h
    obtain ⟨name, hname, h⟩ := h
    have hpair : pair.1 = name := by
      cases init with
      | none => rw [← Except.ok.inj h]
      | some init =>
        obtain ⟨value, -, h⟩ := bind_eq_ok.1 h
        rw [← Except.ok.inj h]
    cases id with
    | identifier text => exact ⟨text, rfl, hpair.trans (Except.ok.inj hname).symm⟩
    | _ => cases hname
  | _ => cases h

theorem letPairs_symbols (h : letPairs visit body = .ok bound) :
    ∀ pair ∈ bound, ∃ text, pair.1 = .symbol text := by
  refine yields_mapM (fun node _ pair hpair => ?_) bound h
  obtain ⟨name, -, hsymbol⟩ := letPair_name hpair
  exact ⟨name, hsymbol⟩

/-- The bindings of a list have the names of its declarators. -/
theorem boundName?_letPairs (h : letPairs visit body = .ok bound) (i : Nat) :
    boundName? bound i = nameAt? (body.flatMap declarators) i := by
  have hpair := getElem?_mapM h i
  rw [boundName?, nameAt?]
  cases hnode : (body.flatMap declarators)[i]? with
  | none =>
    rw [hnode] at hpair
    rw [← Except.ok.inj hpair]
    rfl
  | some node =>
    rw [hnode] at hpair
    obtain ⟨pair, hletPair, hbound⟩ := bind_eq_ok.1 hpair
    obtain ⟨name, hname, hsymbol⟩ := letPair_name hletPair
    rw [← Except.ok.inj hbound]
    simp [hname, hsymbol, symbol?]

theorem selfName?_function (visit : Visit) (self : Option String) (params : List Node)
    (body : Node) :
    Yields (function visit "fn" (self.map .symbol) params body) (·.selfName? = self) := by
  refine yields_bind (fun _ _ => trivial) fun params _ =>
    yields_bind (fun _ _ => trivial) fun forms _ => yields_pure ?_
  cases self <;> rfl

/-- The form of a function has the name that the function has for itself, so that nothing else is
meant by that name inside. -/
theorem not_refersTo_of_selfName? {init : Node} (hf : init.isFunction) {value : Form}
    (h : (Visit.forms scope).one init = .ok value) {name : String}
    (hself : value.selfName? = some name) : init.refersTo name = false := by
  obtain ⟨forms, hforms, h⟩ := bind_eq_ok.1 h
  obtain rfl := Except.ok.inj h
  rw [Visit.forms, forms_eq] at hforms
  cases init with
  | arrowFunctionExpression params body =>
    obtain ⟨form, hform, hforms⟩ := bind_eq_ok.1 hforms
    obtain rfl := Except.ok.inj hforms
    rw [sequence_singleton, selfName?_function _ none params body form hform] at hself
    cases hself
  | functionExpression id params body =>
    obtain ⟨own, hown, hforms⟩ := bind_eq_ok.1 hforms
    obtain ⟨form, hform, hforms⟩ := bind_eq_ok.1 hforms
    obtain rfl := Except.ok.inj hforms
    rw [sequence_singleton] at hself
    cases id with
    | none =>
      obtain rfl := Except.ok.inj hown
      rw [selfName?_function _ none params body form hform] at hself
      cases hself
    | some id =>
      cases id with
      | identifier text =>
        obtain rfl := Except.ok.inj hown
        rw [selfName?_function _ (some text) params body form hform] at hself
        rw [Option.some.inj hself]
        exact not_refersTo_functionExpression name params body
      | _ => cases hown
  | _ => cases hf

/-- At the top level a function without a name for itself is defined under the name that it is
declared with, so that this name means the function inside. -/
theorem not_refersTo_declarator (visit : Visit) (name : String) (params : List Node)
    (body init : Node) (hinit : init = .arrowFunctionExpression params body ∨
      init = .functionExpression none params body) :
    Yields (declarator visit (.variableDeclarator (.identifier name) (some init))) fun form =>
      ¬form.refersTo name := by
  have hdefn : declarator visit (.variableDeclarator (.identifier name) (some init)) =
      function visit "defn" (some (.symbol name)) params body := by
    rcases hinit with rfl | rfl <;> rfl
  rw [hdefn]
  refine yields_bind (fun _ _ => trivial) fun params _ =>
    yields_bind (fun _ _ => trivial) fun forms _ => yields_pure ?_
  simp [Form.call, Form.refersTo]

/-- The binding that a function refers to is reached iff it stands in front of the function, with no
other binding of the name between them. -/
theorem resolve?_eq_some_iff (h : letPairs (.forms scope) body = .ok bound) {i j : Nat}
    {name : String} (hr : Reference (body.flatMap declarators) i j name) :
    resolve? bound i name = some j ↔
      j < i ∧ ∀ k, j < k → k < i → nameAt? (body.flatMap declarators) k ≠ some name := by
  obtain ⟨id, init, hnode, hf, hname⟩ := hr.function
  have hself : (bound[i]?.bind fun pair => pair.2.selfName?) ≠ some name := by
    have hpair := getElem?_mapM h i
    rw [hnode] at hpair
    obtain ⟨pair, hletPair, hbound⟩ := bind_eq_ok.1 hpair
    rw [← Except.ok.inj hbound, Option.bind_some]
    intro hself
    obtain ⟨_, -, hletPair⟩ := bind_eq_ok.1 hletPair
    obtain ⟨value, hvalue, hletPair⟩ := bind_eq_ok.1 hletPair
    rw [← Except.ok.inj hletPair] at hself
    rw [not_refersTo_of_selfName? hf hvalue hself] at hname
    cases hname
  rw [resolve?, if_neg hself, lastBefore?_eq_some]
  simp only [boundName?_letPairs h, hr.target, true_and]

end Rule

namespace Node

open Rule Form

/-- Wherever a function of a list refers to its own variable or to a later one of the list, the
forms of the list reach such a variable. -/
def KeepsFunctions (scope : Scope) (body : List Node) (forms : List Form) : Prop :=
  ∃ bound tail, letPairs (.forms scope) body = .ok bound ∧ Reaches forms bound tail ∧
    ∀ i j name, Reference (body.flatMap declarators) i j name → i ≤ j →
      ∃ k, i ≤ k ∧ nameAt? (body.flatMap declarators) k = some name ∧ resolve? bound i name = some k

/-- Inside a function of a list, the name of a variable of the list that the function refers to
means this variable iff the variable stands in front of the function, as the last one of its name.
So the functions of a list are kept iff all the variables that they refer to stand in front of them.
What means nothing in the list is free in its forms. -/
theorem forms_localFunctions (scope : Scope) {body : List Node} {forms : List Form}
    (h : statements (.forms scope) body = .ok forms) :
    (KeepsFunctions scope body forms ↔
      ∀ i j name, Reference (body.flatMap declarators) i j name → j < i) ∧
    ∃ bound tail, letPairs (.forms scope) body = .ok bound ∧ Reaches forms bound tail ∧
      (∀ i j name, Reference (body.flatMap declarators) i j name →
        (resolve? bound i name = some j ↔
          j < i ∧ ∀ k, j < k → k < i → nameAt? (body.flatMap declarators) k ≠ some name)) ∧
      ∀ (i : Nat) (pair : Form × Form) (name : String), bound[i]? = some pair →
        pair.2.refersTo name → resolve? bound i name = none →
          ∃ form ∈ forms, form.refersTo name := by
  rw [← List.append_nil body] at h
  obtain ⟨bound, tail, hbound, -, hreaches⟩ :=
    reaches_rest (fun hd => absurd hd (by simp [startsDeclared])) h
  refine ⟨⟨?_, fun hfront => ?_⟩, bound, tail, hbound, hreaches,
    fun i j name hr => resolve?_eq_some_iff hbound hr, fun i pair name hpair hvalue hnone => ?_⟩
  · rintro ⟨others, _, hothers, -, hkeeps⟩ i j name hr
    obtain rfl := Except.ok.inj (hothers.symm.trans hbound)
    by_contra hj
    obtain ⟨k, hk, hname, hresolve⟩ := hkeeps i j name hr (by omega)
    have hbefore := ((resolve?_eq_some_iff hbound ⟨hr.function, hname⟩).1 hresolve).1
    omega
  · refine ⟨bound, tail, hbound, hreaches, fun i j name hr hj => ?_⟩
    have hbefore := hfront i j name hr
    omega
  · have hlast : lastBefore? bound name i = none := by
      rw [resolve?] at hnone
      split at hnone
      · cases hnone
      · exact hnone
    exact hreaches.exists_refersTo (letPairs_symbols hbound) hpair hvalue
      (lastBefore?_eq_none.1 hlast)

/-- The statements `const x = 1, f = (f) => f(x); return f;`. -/
def earlierVariable : List Node :=
  [.variableDeclaration .const
      [.variableDeclarator (.identifier "x") (some (.numericLiteral "1")),
        .variableDeclarator (.identifier "f") (some (.arrowFunctionExpression [.identifier "f"]
          (.callExpression (.identifier "f") [.identifier "x"])))],
    .returnStatement (some (.identifier "f"))]

/-- The forms of `earlierVariable`. -/
def earlierForms : List Form :=
  [.call "let" [.vector [.symbol "x", .number "1", .symbol "f",
    .call "fn" [.vector [.symbol "f"], .list [.symbol "f", .symbol "x"]]], .symbol "f"]]

/-- In `const x = 1, f = (f) => f(x); return f;` the function refers to the variable in front of it
only, since its parameter has the name of its own variable. -/
theorem forms_earlierVariable :
    statements (.forms fun _ => false) earlierVariable = .ok earlierForms ∧
      KeepsFunctions (fun _ => false) earlierVariable earlierForms := by
  have hforms : statements (.forms fun _ => false) earlierVariable = .ok earlierForms := rfl
  refine ⟨hforms, (forms_localFunctions _ hforms).1.2 ?_⟩
  rintro i j name ⟨⟨id, init, hnode, hf, hname⟩, htarget⟩
  rcases i with _ | _ | i
  · obtain ⟨-, rfl⟩ : .identifier "x" = id ∧ .numericLiteral "1" = init := by
      simpa [earlierVariable, declarators] using hnode
    cases hf
  · obtain ⟨-, rfl⟩ : .identifier "f" = id ∧ .arrowFunctionExpression [.identifier "f"]
        (.callExpression (.identifier "f") [.identifier "x"]) = init := by
      simpa [earlierVariable, declarators] using hnode
    rcases j with _ | _ | j
    · exact Nat.zero_lt_one
    · obtain rfl : "f" = name := Option.some.inj htarget
      exact absurd hname (by decide)
    · cases htarget
  · cases hnode

/-- The statements `const g = (x) => g(x); return g(1);`. -/
def recursiveArrow : List Node :=
  [.variableDeclaration .const [.variableDeclarator (.identifier "g")
      (some (.arrowFunctionExpression [.identifier "x"]
        (.callExpression (.identifier "g") [.identifier "x"])))],
    .returnStatement (some (.callExpression (.identifier "g") [.numericLiteral "1"]))]

/-- The forms of `recursiveArrow`. -/
def recursiveForms : List Form :=
  [.call "let" [.vector [.symbol "g",
      .call "fn" [.vector [.symbol "x"], .list [.symbol "g", .symbol "x"]]],
    .list [.symbol "g", .number "1"]]]

/-- In `const g = (x) => g(x); return g(1);` the function calls itself, but the `g` inside its form
is free in the forms of the list. -/
theorem forms_recursiveArrow_lost :
    statements (.forms fun _ => false) recursiveArrow = .ok recursiveForms ∧
      Reference (recursiveArrow.flatMap declarators) 0 0 "g" ∧
      ¬KeepsFunctions (fun _ => false) recursiveArrow recursiveForms ∧
      ∃ form ∈ recursiveForms, form.refersTo "g" := by
  have href : Reference (recursiveArrow.flatMap declarators) 0 0 "g" :=
    ⟨⟨_, _, rfl, rfl, by decide⟩, rfl⟩
  refine ⟨rfl, href, ?_, _, List.mem_cons_self, by decide⟩
  rintro ⟨bound, tail, hbound, -, hkeeps⟩
  obtain ⟨k, -, hname, hresolve⟩ := hkeeps 0 0 "g" href le_rfl
  have hbefore := ((resolve?_eq_some_iff hbound ⟨href.function, hname⟩).1 hresolve).1
  omega

end Node

end ScriptForms
