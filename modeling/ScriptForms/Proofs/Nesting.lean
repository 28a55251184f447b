import Mathlib.Algebra.Group.Nat.Even
import Mathlib.Data.List.Induction
import ScriptForms.Proofs.Switch.Group

/-!
# Statement lists as nested lets

The conversion of a statement list collects the bindings of a run of declarations while it goes
along, and closes the `let` around them afterwards. What comes out is a plain recursion: a maximal
run of declarations opens one `let` around the forms of all that follows, and any other statement
stands in front of them. So every declarator is bound for exactly what comes after it in the list.

* `Rule.nestLets`: statement lists by this recursion.
* `Form.Reaches`: the end of a list of forms, with what is bound on the way to it.
* `Rule.statements_eq_nestLets`: the conversion is this recursion.
* `Rule.reaches_rest`: what is bound at a statement of a list.
* `Node.forms_statements`: the forms of a statement list, and the scope of its declarations.
-/

namespace ScriptForms

/-- The declarators of a declaration. -/
def Node.declarators : Node → List Node
  | .variableDeclaration _ declarations => declarations
  | _ => []

namespace Form

/-! ### Lets -/

/-- The names and values of some bindings, as they stand in the vector of a `let`. -/
def bindingItems (pairs : List (Form × Form)) : List Form :=
  pairs.flatMap fun pair => [pair.1, pair.2]

theorem bindingItems_append (first second : List (Form × Form)) :
    bindingItems (first ++ second) = bindingItems first ++ bindingItems second :=
  List.flatMap_append

theorem even_length_bindingItems (pairs : List (Form × Form)) :
    Even (bindingItems pairs).length := by
  induction pairs with
  | nil => exact ⟨0, rfl⟩
  | cons pair pairs ih =>
    obtain ⟨n, hn⟩ := ih
    refine ⟨n + 1, ?_⟩
    show (bindingItems pairs).length + 2 = n + 1 + (n + 1)
    omega

/-- The list `(let [name value ...] body ...)`. -/
def letForm (pairs : List (Form × Form)) (body : List Form) : Form :=
  .call "let" (.vector (bindingItems pairs) :: body)

/-- The forms `tail` stand at the end of a list of forms, or in the `let` at its end, or in the
`let` at the end of that one, and so on; `bound` are the bindings of the lets around them, outermost
first. -/
inductive Reaches : List Form → List (Form × Form) → List Form → Prop where
  | here (front tail : List Form) : Reaches (front ++ tail) [] tail
  | under {body tail : List Form} {bound : List (Form × Form)} (front : List Form)
      (pairs : List (Form × Form)) (h : Reaches body bound tail) :
      Reaches (front ++ [letForm pairs body]) (pairs ++ bound) tail

variable {forms tail : List Form} {bound : List (Form × Form)}

theorem Reaches.refl (forms : List Form) : Reaches forms [] forms := .here [] forms

theorem Reaches.append_left (front : List Form) (h : Reaches forms bound tail) :
    Reaches (front ++ forms) bound tail := by
  cases h with
  | here inner tail =>
    rw [← List.append_assoc]
    exact .here (front ++ inner) tail
  | under inner pairs h =>
    rw [← List.append_assoc]
    exact .under (front ++ inner) pairs h

end Form

namespace Rule

open Node Form

variable {visit : Visit} {run rest : List Node}

/-! ### Bindings -/

/-- The name and the value that a declarator binds; without an initializer the value is `nil`. -/
def letPair (visit : Visit) : Node → Except Fault (Form × Form)
  | .variableDeclarator id init => do
    let name ← bindingName id
    let value ← match init with
      | some init => visit.one init
      | none => pure .nil
    return (name, value)
  | node => .error (.unsupported node)

/-- What the declarations among some statements bind, declarator by declarator. -/
def letPairs (visit : Visit) (body : List Node) : Except Fault (List (Form × Form)) :=
  (body.flatMap declarators).mapM (letPair visit)

theorem letPairs_append (visit : Visit) (first second : List Node) :
    letPairs visit (first ++ second) = (do
      let pairs ← letPairs visit first
      let others ← letPairs visit second
      return pairs ++ others) := by
  rw [letPairs, List.flatMap_append, List.mapM_append]
  rfl

/-- What some statements bind is known from what the parts of their list bind. -/
theorem letPairs_append_eq_ok {first second : List Node} {pairs : List (Form × Form)} :
    letPairs visit (first ++ second) = .ok pairs ↔ ∃ front back, letPairs visit first = .ok front ∧
      letPairs visit second = .ok back ∧ pairs = front ++ back := by
  rw [letPairs_append, bind_eq_ok]
  constructor
  · rintro ⟨front, hfront, h⟩
    obtain ⟨back, hback, h⟩ := bind_eq_ok.1 h
    exact ⟨front, back, hfront, hback, (Except.ok.inj h).symm⟩
  · rintro ⟨front, back, hfront, hback, rfl⟩
    exact ⟨front, hfront, by rw [hback]; rfl⟩

theorem letPairs_of_not_isDeclaration {statement : Node} (h : statement.isDeclaration = false) :
    letPairs visit [statement] = .ok [] := by
  cases statement with
  | variableDeclaration kind declarations => cases h
  | _ => rfl

theorem binding_eq (visit : Visit) (node : Node) :
    binding visit node = (do
      let pair ← letPair visit node
      return [pair.1, pair.2]) := by
  cases node with
  | variableDeclarator id init =>
    rw [binding, letPair, bind_assoc]
    refine bind_congr fun name => ?_
    cases init with
    | none => rfl
    | some init =>
      rw [bind_assoc]
      rfl
  | _ => rfl

/-- Declarators add their names and values one after the other. -/
theorem mapM_binding (visit : Visit) (nodes : List Node) :
    (do
      let items ← nodes.mapM (binding visit)
      return items.flatten) = (do
      let pairs ← nodes.mapM (letPair visit)
      return bindingItems pairs) := by
  induction nodes with
  | nil => rfl
  | cons node nodes ih =>
    rw [List.mapM_cons, List.mapM_cons, binding_eq]
    simp only [bind_assoc, pure_bind]
    refine bind_congr fun pair => ?_
    have hitems := congrArg (fun rest => (do
      let items ← rest
      return [pair.1, pair.2] ++ items : Except Fault (List Form))) ih
    simpa only [bind_assoc, pure_bind, List.flatten_cons, bindingItems, List.flatMap_cons]
      using hitems

theorem bindings_eq {node : Node} (h : node.isDeclaration) :
    bindings visit node = (do
      let pairs ← letPairs visit [node]
      return bindingItems pairs) := by
  cases node with
  | variableDeclaration kind declarations =>
    rw [bindings, letPairs, List.flatMap_singleton, declarators, mapM_binding]
  | _ => cases h

/-! ### The recursion -/

theorem length_dropWhile_le (body : List Node) :
    (body.dropWhile isDeclaration).length ≤ body.length :=
  (List.dropWhile_sublist _).length_le

/-- The forms of a statement list. A maximal run of declarations opens a `let` around the forms of
what follows it; any other statement stands in front of the forms of what follows. -/
def nestLets (visit : Visit) (body : List Node) : Except Fault (List Form) :=
  match body with
  | [] => .ok []
  | statement :: rest =>
    if statement.isDeclaration then do
      let pairs ← letPairs visit (statement :: rest.takeWhile isDeclaration)
      let forms ← nestLets visit (rest.dropWhile isDeclaration)
      return [letForm pairs forms]
    else do
      let first ← visit statement .value
      let forms ← nestLets visit rest
      return (first.filter fun form => !form.isMarker) ++ forms
termination_by body.length
decreasing_by
  · exact Nat.lt_succ_of_le (length_dropWhile_le rest)
  · exact Nat.lt_succ_self _

/-- What comes after a maximal run does not start with a declaration. -/
theorem startsDeclared_dropWhile (body : List Node) :
    startsDeclared (body.dropWhile isDeclaration) = false := by
  have hhead := List.head?_dropWhile_not isDeclaration body
  rw [startsDeclared]
  cases hd : (body.dropWhile isDeclaration).head? with
  | none => rfl
  | some node =>
    rw [hd] at hhead
    exact hhead

theorem isDeclaration_of_mem_takeWhile {body : List Node} :
    ∀ s ∈ body.takeWhile isDeclaration, s.isDeclaration :=
  List.all_eq_true.1 List.all_takeWhile

/-- A list that starts with a declaration starts with a run of them. -/
theorem leading_run {statement : Node} (h : statement.isDeclaration) (rest : List Node) :
    (∀ s ∈ statement :: rest.takeWhile isDeclaration, s.isDeclaration) ∧
      statement :: rest =
        (statement :: rest.takeWhile isDeclaration) ++ rest.dropWhile isDeclaration := by
  refine ⟨List.forall_mem_cons.2 ⟨h, isDeclaration_of_mem_takeWhile⟩, ?_⟩
  rw [List.cons_append, List.takeWhile_append_dropWhile]

/-- A run of declarations puts its bindings in front of those that are collected after it. -/
theorem splitStatements_run (hrun : ∀ s ∈ run, s.isDeclaration) (rest : List Node) :
    splitStatements visit (run ++ rest) = (do
      let pairs ← letPairs visit run
      let split ← splitStatements visit rest
      return (bindingItems pairs ++ split.1, split.2)) := by
  induction run with
  | nil =>
    show splitStatements visit rest = splitStatements visit rest >>= fun split => pure split
    rw [bind_pure]
  | cons statement run ih =>
    rw [List.forall_mem_cons] at hrun
    rw [List.cons_append, splitStatements, if_pos hrun.1, bindings_eq hrun.1, ih hrun.2,
      show statement :: run = [statement] ++ run from rfl, letPairs_append]
    simp only [bind_assoc, pure_bind, bindingItems_append, List.append_assoc]

/-- Nothing is collected in front of a statement that is no declaration. -/
theorem splitStatements_of_not_startsDeclared (h : startsDeclared rest = false) :
    splitStatements visit rest = (do
      let forms ← statements visit rest
      return ([], forms)) := by
  cases rest with
  | nil => rfl
  | cons statement rest =>
    have hstatement : ¬statement.isDeclaration := by simpa [startsDeclared] using h
    simp only [statements, splitStatements, hstatement, closeLet, h, bind_assoc, pure_bind,
      Bool.false_eq_true, if_false]

theorem statements_run (hne : run ≠ []) (hrun : ∀ s ∈ run, s.isDeclaration)
    (hrest : startsDeclared rest = false) :
    statements visit (run ++ rest) = (do
      let pairs ← letPairs visit run
      let forms ← statements visit rest
      return [letForm pairs forms]) := by
  have hstarts : startsDeclared (run ++ rest) := by
    cases run with
    | nil => exact absurd rfl hne
    | cons statement run => exact hrun statement List.mem_cons_self
  rw [statements, splitStatements_run hrun, splitStatements_of_not_startsDeclared hrest]
  simp only [bind_assoc, pure_bind, closeLet, hstarts, if_true, List.append_nil]
  rfl

theorem statements_cons {statement : Node} (h : statement.isDeclaration = false)
    (rest : List Node) :
    statements visit (statement :: rest) = (do
      let first ← visit statement .value
      let forms ← statements visit rest
      return (first.filter fun form => !form.isMarker) ++ forms) := by
  have hstarts : startsDeclared (statement :: rest) = false := h
  simp only [statements, splitStatements, h, closeLet, hstarts, bind_assoc, pure_bind,
    Bool.false_eq_true, if_false]

/-- The conversion of a statement list is the recursion over runs of declarations. -/
theorem statements_eq_nestLets (visit : Visit) (body : List Node) :
    statements visit body = nestLets visit body := by
  fun_induction nestLets visit body with
  | case1 => rfl
  | case2 statement rest hdeclared ih =>
    obtain ⟨hrun, hsplit⟩ := leading_run hdeclared rest
    rw [hsplit, statements_run (List.cons_ne_nil _ _) hrun (startsDeclared_dropWhile rest), ih]
  | case3 statement rest hdeclared ih => rw [statements_cons (by simpa using hdeclared), ih]

/-! ### What is bound at a statement -/

theorem statements_not_isMarker (visit : Visit) (body : List Node) :
    Yields (statements visit body) fun forms => ∀ form ∈ forms, form.isMarker = false := by
  rw [statements_eq_nestLets]
  fun_induction nestLets visit body with
  | case1 => exact yields_ok (by simp)
  | case2 statement rest hdeclared ih =>
    refine yields_bind (fun pairs _ => trivial) fun pairs _ => yields_bind ih fun forms _ => ?_
    exact yields_pure (List.forall_mem_singleton.2 rfl)
  | case3 statement rest hdeclared ih =>
    refine yields_bind (fun first _ => trivial) fun first _ => yields_bind ih fun forms hforms => ?_
    refine yields_pure (List.forall_mem_append.2 ⟨fun form hm => ?_, hforms⟩)
    simpa using (List.mem_filter.1 hm).2

/-- Whether the last of some statements is a declaration. -/
def endsDeclared (body : List Node) : Bool := body.getLast?.any isDeclaration

theorem endsDeclared_of_append {front back : List Node} (h : endsDeclared (front ++ back) = false) :
    endsDeclared back = false := by
  rw [endsDeclared, List.getLast?_append] at h
  rw [endsDeclared]
  cases hb : back.getLast? with
  | none => rfl
  | some node => simpa [hb] using h

/-- Behind a run of declarations nothing starts with another one, if the rest does not. -/
theorem startsDeclared_append {back : List Node} (hne : run ≠ [])
    (hrun : ∀ s ∈ run, s.isDeclaration) (hback : startsDeclared back = false)
    (hcut : startsDeclared rest → endsDeclared (run ++ back) = false) :
    startsDeclared (back ++ rest) = false := by
  cases back with
  | nil =>
    rw [List.nil_append, ← Bool.not_eq_true]
    intro hrest
    have hlast := hcut hrest
    rw [List.append_nil, endsDeclared, List.getLast?_eq_some_getLast hne, Option.any_some,
      hrun _ (List.getLast_mem hne)] at hlast
    cases hlast
  | cons node nodes => exact hback

/-- Where a list of statements is cut outside of every run of declarations, the forms of its second
part stand at the end of its forms, and what is bound there are the declarators of its first
part. -/
theorem reaches_rest {front : List Node} {forms : List Form}
    (hcut : startsDeclared rest → endsDeclared front = false)
    (h : statements visit (front ++ rest) = .ok forms) :
    ∃ bound tail, letPairs visit front = .ok bound ∧ statements visit rest = .ok tail ∧
      Reaches forms bound tail := by
  -- By induction on the number of statements in front: a run of declarations is taken off as one.
  induction hn : front.length using Nat.strongRecOn generalizing front forms with
  | _ n ih =>
    subst hn
    cases front with
    | nil => exact ⟨[], forms, rfl, h, .refl forms⟩
    | cons statement front =>
      by_cases hdeclared : statement.isDeclaration
      · obtain ⟨hrun, hfront⟩ := leading_run hdeclared front
        have hshort : (front.dropWhile isDeclaration).length < (statement :: front).length :=
          Nat.lt_succ_of_le (length_dropWhile_le front)
        rw [hfront] at hcut h ⊢
        have hback := startsDeclared_append (List.cons_ne_nil _ _) hrun
          (startsDeclared_dropWhile front) hcut
        rw [List.append_assoc, statements_run (List.cons_ne_nil _ _) hrun hback] at h
        obtain ⟨pairs, hpairs, h⟩ := bind_eq_ok.1 h
        obtain ⟨inner, hinner, h⟩ := bind_eq_ok.1 h
        obtain rfl := Except.ok.inj h
        obtain ⟨bound, tail, hbound, htail, hreaches⟩ :=
          ih _ hshort (fun hrest => endsDeclared_of_append (hcut hrest)) hinner rfl
        refine ⟨pairs ++ bound, tail, ?_, htail, .under [] pairs hreaches⟩
        exact letPairs_append_eq_ok.2 ⟨pairs, bound, hpairs, hbound, rfl⟩
      · rw [Bool.not_eq_true] at hdeclared
        rw [List.cons_append, statements_cons hdeclared] at h
        obtain ⟨own, -, h⟩ := bind_eq_ok.1 h
        obtain ⟨later, hlater, h⟩ := bind_eq_ok.1 h
        obtain rfl := Except.ok.inj h
        rw [← List.singleton_append] at hcut ⊢
        obtain ⟨bound, tail, hbound, htail, hreaches⟩ := ih _ (Nat.lt_succ_self _)
          (fun hrest => endsDeclared_of_append (hcut hrest)) hlater rfl
        refine ⟨bound, tail, ?_, htail, hreaches.append_left _⟩
        exact letPairs_append_eq_ok.2
          ⟨[], bound, letPairs_of_not_isDeclaration hdeclared, hbound, rfl⟩

/-- The declarations right at the end of a list. -/
theorem exists_last_run (front : List Node) :
    ∃ before run, front = before ++ run ∧ (∀ s ∈ run, s.isDeclaration) ∧
      endsDeclared before = false := by
  induction front using List.reverseRecOn with
  | nil => exact ⟨[], [], rfl, by simp, rfl⟩
  | append_singleton front last ih =>
    by_cases hlast : last.isDeclaration
    · obtain ⟨before, run, rfl, hrun, hbefore⟩ := ih
      refine ⟨before, run ++ [last], List.append_assoc _ _ _, ?_, hbefore⟩
      exact List.forall_mem_append.2 ⟨hrun, by simpa using hlast⟩
    · exact ⟨front ++ [last], [], by simp, by simp, by simpa [endsDeclared] using hlast⟩

/-- A statement between others: in the forms of the list it stands under exactly what is declared in
front of it, and is followed by exactly the forms of the statements after it. -/
def StandsBetween (visit : Visit) (front : List Node) (statement : Node) (back : List Node)
    (forms : List Form) : Prop :=
  ∃ bound own later, letPairs visit front = .ok bound ∧ visit statement .value = .ok own ∧
    statements visit back = .ok later ∧
    Reaches forms bound ((own.filter fun form => !form.isMarker) ++ later)

/-- A declaration between other statements: in the forms of the list it stands in a `let` after
exactly what is declared in front of it. The declarations right behind it follow in the `let`, which
holds exactly the forms of the rest; its vector has as many values as names. -/
def BindsBetween (visit : Visit) (front : List Node) (declaration : Node) (back : List Node)
    (forms : List Form) : Prop :=
  ∃ bound before own later inner, letPairs visit front = .ok (bound ++ before) ∧
    letPairs visit [declaration] = .ok own ∧
    letPairs visit (back.takeWhile isDeclaration) = .ok later ∧
    statements visit (back.dropWhile isDeclaration) = .ok inner ∧
    Reaches forms bound [letForm (before ++ own ++ later) inner] ∧
    Even (bindingItems (before ++ own ++ later)).length

theorem standsBetween_of_ok {front back : List Node} {statement : Node} {forms : List Form}
    (hstatement : statement.isDeclaration = false)
    (h : statements visit (front ++ statement :: back) = .ok forms) :
    StandsBetween visit front statement back forms := by
  have hstarts : startsDeclared (statement :: back) = false := hstatement
  obtain ⟨bound, tail, hbound, htail, hreaches⟩ :=
    reaches_rest (fun hd => absurd hd (by rw [hstarts]; exact Bool.false_ne_true)) h
  rw [statements_cons hstatement] at htail
  obtain ⟨own, hown, htail⟩ := bind_eq_ok.1 htail
  obtain ⟨later, hlater, htail⟩ := bind_eq_ok.1 htail
  obtain rfl := Except.ok.inj htail
  exact ⟨bound, own, later, hbound, hown, hlater, hreaches⟩

theorem bindsBetween_of_ok {front back : List Node} {declaration : Node} {forms : List Form}
    (hdeclaration : declaration.isDeclaration)
    (h : statements visit (front ++ declaration :: back) = .ok forms) :
    BindsBetween visit front declaration back forms := by
  -- The `let` starts with the run of declarations right in front of this one.
  obtain ⟨first, run, rfl, hrun, hfirst⟩ := exists_last_run front
  rw [List.append_assoc] at h
  obtain ⟨bound, tail, hbound, htail, hreaches⟩ := reaches_rest (fun _ => hfirst) h
  have hwhole : run ++ declaration :: back =
      (run ++ [declaration] ++ back.takeWhile isDeclaration) ++ back.dropWhile isDeclaration := by
    rw [List.append_assoc, List.append_assoc, List.takeWhile_append_dropWhile,
      List.singleton_append]
  have hall : ∀ s ∈ run ++ [declaration] ++ back.takeWhile isDeclaration, s.isDeclaration :=
    List.forall_mem_append.2 ⟨List.forall_mem_append.2 ⟨hrun, by simpa using hdeclaration⟩,
      isDeclaration_of_mem_takeWhile⟩
  rw [hwhole, statements_run (by simp) hall (startsDeclared_dropWhile back)] at htail
  obtain ⟨pairs, hpairs, htail⟩ := bind_eq_ok.1 htail
  obtain ⟨inner, hinner, htail⟩ := bind_eq_ok.1 htail
  obtain rfl := Except.ok.inj htail
  obtain ⟨others, later, hothers, hlater, rfl⟩ := letPairs_append_eq_ok.1 hpairs
  obtain ⟨before, own, hbefore, hown, rfl⟩ := letPairs_append_eq_ok.1 hothers
  refine ⟨bound, before, own, later, inner, ?_, hown, hlater, hinner, hreaches,
    even_length_bindingItems _⟩
  exact letPairs_append_eq_ok.2 ⟨bound, before, hbound, hbefore, rfl⟩

end Rule

namespace Node

open Rule Form

/-- The forms of a statement list are those of the recursion over runs of declarations, or both fail
for the same reason, and a block is made of them. No marker is among them. A statement stands under
the declarations in front of it and under no others, and a declaration binds its names in what
follows it and in nothing else. -/
theorem forms_statements (scope : Scope) (body : List Node) :
    statements (.forms scope) body = nestLets (.forms scope) body ∧
    (∀ context, (Node.blockStatement body).forms scope context = (do
      let forms ← nestLets (.forms scope) body
      return if context.implicitDo then forms else [.sequence forms])) ∧
    ∀ forms, statements (.forms scope) body = .ok forms →
      (∀ form ∈ forms, form.isMarker = false) ∧
      ∀ front statement back, body = front ++ statement :: back →
        (statement.isDeclaration = false →
          StandsBetween (.forms scope) front statement back forms) ∧
        (statement.isDeclaration → BindsBetween (.forms scope) front statement back forms) := by
  refine ⟨statements_eq_nestLets _ body, fun context => ?_, fun forms hforms => ?_⟩
  · rw [forms_eq, step, ← statements_eq_nestLets]
  · refine ⟨statements_not_isMarker _ body forms hforms, fun front statement back hbody => ?_⟩
    subst hbody
    exact ⟨fun h => standsBetween_of_ok h hforms, fun h => bindsBetween_of_ok h hforms⟩

/-- The statements `let a = 1, b; f(); ; const c = b; g(c);`. -/
def mixedStatements : List Node :=
  [.variableDeclaration .let [.variableDeclarator (.identifier "a") (some (.numericLiteral "1")),
      .variableDeclarator (.identifier "b") none],
    .expressionStatement (.callExpression (.identifier "f") []) [],
    .emptyStatement,
    .variableDeclaration .const [.variableDeclarator (.identifier "c") (some (.identifier "b"))],
    .expressionStatement (.callExpression (.identifier "g") [.identifier "c"]) []]

/-- The forms of `mixedStatements`. -/
def mixedForms : List Form :=
  [.call "let" [.vector [.symbol "a", .number "1", .symbol "b", .nil],
    .list [.symbol "f"],
    .call "let" [.vector [.symbol "c", .symbol "b"], .list [.symbol "g", .symbol "c"]]]]

/-- In `let a = 1, b; f(); ; const c = b; g(c);` the second declaration opens a `let` in the first
one, and stands after both of its bindings. -/
theorem forms_mixedStatements :
    nestLets (.forms fun _ => false) mixedStatements = .ok mixedForms ∧
      BindsBetween (.forms fun _ => false) (mixedStatements.take 3)
        (.variableDeclaration .const
          [.variableDeclarator (.identifier "c") (some (.identifier "b"))])
        (mixedStatements.drop 4) mixedForms := by
  have hforms : statements (.forms fun _ => false) mixedStatements = .ok mixedForms := rfl
  obtain ⟨heq, -, hplaces⟩ := forms_statements (fun _ => false) mixedStatements
  exact ⟨heq ▸ hforms, ((hplaces mixedForms hforms).2 _ _ _ rfl).2 rfl⟩

end Node

end ScriptForms
