import ScriptForms.Proofs.Acceptance.Convert
import ScriptForms.Proofs.Switch.Group

/-!
# Breaks end their clauses

A `case` form has no way to leave one of its bodies early, so a `break` may be dropped only where it
changes nothing: as the last statement of a clause, once the blocks at the end of the clause are
opened up. A place in a tree is a path of child numbers. The `break` statements of a `switch` are
those below its clauses, but not those below a `switch` or a function in between.

* `Node.leadsToBreak`: the paths from a node to a `break` of the `switch` around it.
* `Node.clauseEnd`: the path from a clause to its last statement.
* `Node.breaksOut_of_leadsToBreak`: the search for such a `break` misses none.
* `Node.toProgram_breaks`: in a script that has a form, every `break` ends its clause.
-/

namespace ScriptForms.Node

/-! ### Places -/

/-- Whether a `break` below a node belongs to the node or to something below it, and not to what is
around the node. -/
def ownsBreaks : Node → Bool
  | .switchStatement .. | .functionDeclaration .. | .functionExpression ..
  | .arrowFunctionExpression .. | .objectMethod .. => true
  | _ => false

/-- Whether a path leads from a node to a `break` of the `switch` around the node. -/
def leadsToBreak (node : Node) : List Nat → Bool
  | [] => node.isBreak
  | number :: path => !node.ownsBreaks && node.children[number]?.any (leadsToBreak · path)

/-- The nodes that a path passes, without the node at its end. -/
def passed (node : Node) : List Nat → List Node
  | [] => []
  | number :: path => node :: (node.children[number]?.map (passed · path)).getD []

mutual

/-- The path to the last statement of a statement, into a block; there is none in a block that holds
no statements but blocks of its kind. -/
def lastPath : Node → Option (List Nat)
  | .blockStatement body => lastPathFrom 0 body
  | _ => some []

/-- The path to the last statement of a list whose first statement has the given number. -/
def lastPathFrom (number : Nat) : List Node → Option (List Nat)
  | [] => none
  | node :: nodes => (lastPathFrom (number + 1) nodes).or ((lastPath node).map (number :: ·))

end

/-- The path from a clause to its last statement, with the blocks at the end of the clause opened
up. -/
def clauseEnd : Node → Option (List Nat)
  | .switchCase test consequent => lastPathFrom test.toList.length consequent
  | _ => none

/-! ### The search for breaks -/

theorem containsBreak_eq (body : List Node) : containsBreak body = body.any breaksOut := by
  induction body with
  | nil => simp [containsBreak]
  | cons node nodes ih => simp [containsBreak, ih]

theorem breaksOutOr_eq (node : Option Node) : breaksOutOr node = node.any breaksOut := by
  cases node <;> simp [breaksOutOr]

/-- What holds a `break` is a statement or a handler. -/
theorem classes_of_breaksOut {node : Node} (h : node.breaksOut) :
    [isExpression, isBinding, isIdentifier, isSpread, isClause, isDeclarator, isDefinition,
      isImportName, isExportName, isKey, isObjectMember, isOpening, isTag, isAttribute,
      isAttributeValue, isElementChild].all (!· node) := by
  cases node <;> first | rfl | simp [breaksOut] at h

/-- Clauses stand below a `switch` only. -/
theorem ownsBreaks_of_isClause {child node : Node} (hfits : node.fits)
    (hc : child ∈ node.children) (h : child.isClause) : node.ownsBreaks := by
  obtain ⟨test, consequent, rfl⟩ := eq_switchCase_of_isClause h
  rcases placed_of_fits hfits hc with hplaced | ⟨-, discriminant, cases, rfl⟩
  · cases hplaced
  · rfl

/-- A `break` below a child is one below the node, unless the node owns it. -/
theorem breaksOut_of_child {child node : Node} (hfits : node.fits) (hc : child ∈ node.children)
    (howns : node.ownsBreaks = false) (hp : node.isProgram = false) (hclause : node.isClause = false)
    (h : child.breaksOut) : node.breaksOut := by
  have hclasses := classes_of_breaksOut h
  simp only [List.all_cons, List.all_nil, Bool.and_eq_true, Bool.not_eq_true'] at hclasses
  cases node with
  | program body => cases hp
  | switchCase test consequent => cases hclause
  | blockStatement body =>
    rw [breaksOut, containsBreak_eq]
    exact List.any_eq_true.2 ⟨child, hc, h⟩
  | ifStatement test consequent alternate =>
    simp only [children, fits] at hc hfits
    simp only [breaksOut, breaksOutOr_eq]
    grind
  | tryStatement block handler finalizer =>
    simp only [children] at hc
    simp only [breaksOut, breaksOutOr_eq]
    grind
  | catchClause param body =>
    simp only [children, fits] at hc hfits
    simp only [breaksOut]
    grind
  | exportNamedDeclaration declaration specifiers =>
    cases declaration <;> simp only [children, fits] at hc hfits <;> grind
  | _ =>
    simp only [children, fits, keyFits, ownsBreaks] at hc hfits howns
    grind

theorem leadsToBreak_cons {node : Node} {number : Nat} {path : List Nat} :
    node.leadsToBreak (number :: path) ↔ node.ownsBreaks = false ∧
      ∃ child, node.children[number]? = some child ∧ child.leadsToBreak path := by
  simp [leadsToBreak, Option.any_eq_true]

/-- The search for a `break` that leaves a statement misses none. -/
theorem breaksOut_of_leadsToBreak {node : Node} (hg : node.Grammatical)
    (hp : node.isProgram = false) (hclause : node.isClause = false) {path : List Nat}
    (h : node.leadsToBreak path) : node.breaksOut := by
  induction path generalizing node with
  | nil =>
    cases node with
    | breakStatement => simp [breaksOut]
    | _ => cases h
  | cons number path ih =>
    obtain ⟨howns, child, hchild, hpath⟩ := leadsToBreak_cons.1 h
    have hc : child ∈ node.children := List.mem_of_getElem? hchild
    have hfits := (grammatical_iff.1 hg).1
    -- The child is no clause, since clauses stand below a `switch` only.
    have hnot : child.isClause = false := by
      by_contra hclause
      simp [ownsBreaks_of_isClause hfits hc (by simpa using hclause)] at howns
    exact breaksOut_of_child hfits hc howns hp hclause
      (ih (hg.child hc) (hg.not_isProgram_child hc) hnot hpath)

/-! ### The last statement -/

/-- No statement but the last one holds a `break`, and the last one only if it is a `break`. -/
def BreaksLast (statements : List Node) : Prop :=
  (∀ s ∈ statements.dropLast, ¬s.breaksOut) ∧ ∀ s ∈ statements.getLast?, s.breaksOut → s.isBreak

theorem breaksLast_cons {node : Node} {statements : List Node} (hne : statements ≠ []) :
    BreaksLast (node :: statements) ↔ ¬node.breaksOut ∧ BreaksLast statements := by
  obtain ⟨front, last, rfl⟩ := List.eq_nil_or_concat statements |>.resolve_left hne
  simp [BreaksLast, List.dropLast_cons_of_ne_nil, List.getLast?_cons, and_assoc]

/-- A clause has no `break` before its end iff only its last statement, with blocks opened up, is a
`break`. -/
theorem breaksLast_of_clauseBody {body : List Node} (h : containsBreak (clauseBody body) = false) :
    BreaksLast (openLastBlock body) := by
  rw [containsBreak_eq, List.any_eq_false] at h
  unfold clauseBody at h
  dsimp only at h
  split at h
  · rename_i hlast
    refine ⟨h, fun s hs _ => ?_⟩
    rw [Option.mem_def.1 hs] at hlast
    exact hlast
  · exact ⟨fun s hs => h s (List.dropLast_subset _ hs),
      fun s hs hbreak => absurd hbreak (h s (List.mem_of_getLast? hs))⟩

theorem lastPathFrom_eq_none (number : Nat) (body : List Node)
    (hb : ∀ node ∈ body, node.lastPath = none ↔ node.openBlock = []) :
    lastPathFrom number body = none ↔ openLastBlock body = [] := by
  induction body generalizing number with
  | nil => simp [lastPathFrom, openLastBlock]
  | cons node nodes ih =>
    rw [List.forall_mem_cons] at hb
    have ih := ih (number + 1) hb.2
    rw [lastPathFrom, openLastBlock]
    cases hnodes : openLastBlock nodes with
    | nil => simp [ih.2 hnodes, hb.1]
    | cons first others => simp [ih, hnodes]

/-- A statement has no last statement iff nothing is left of it when it is opened up. -/
theorem lastPath_eq_none (node : Node) : node.lastPath = none ↔ node.openBlock = [] := by
  induction node using induction_on_children with
  | h node ih =>
    cases node with
    | blockStatement body => simpa [lastPath, openBlock] using lastPathFrom_eq_none 0 body ih
    | _ => simp [lastPath, openBlock]

/-- If only the last statement of a statement breaks, every path to a `break` leads to it. -/
def EndsInBreak (node : Node) : Prop :=
  BreaksLast node.openBlock → ∀ path, node.leadsToBreak path →
    node.lastPath = some path ∧ node.openBlock.getLast? = some .breakStatement

/-- A path to a `break` in a list of statements of which only the last one breaks. -/
theorem lastPathFrom_of_leadsToBreak {body : List Node}
    (hb : ∀ node ∈ body, EndsInBreak node ∧ ∀ path, node.leadsToBreak path → node.breaksOut)
    (h : BreaksLast (openLastBlock body)) (first : Nat) {number : Nat} {node : Node}
    (hn : body[number]? = some node) {path : List Nat} (hpath : node.leadsToBreak path) :
    lastPathFrom first body = some ((first + number) :: path) ∧
      (openLastBlock body).getLast? = some .breakStatement := by
  induction body generalizing first number with
  | nil => simp at hn
  | cons head tail ih =>
    rw [List.forall_mem_cons] at hb
    rw [openLastBlock] at h
    rw [lastPathFrom, openLastBlock]
    cases htail : openLastBlock tail with
    | nil =>
      rw [htail] at h
      have hnone : lastPathFrom (first + 1) tail = none :=
        (lastPathFrom_eq_none _ _ fun node _ => lastPath_eq_none node).2 htail
      cases number with
      | zero =>
        obtain rfl : head = node := by simpa using hn
        obtain ⟨hlast, hbreak⟩ := hb.1.1 h path hpath
        exact ⟨by simp [hnone, hlast], hbreak⟩
      | succ number =>
        -- Nothing is left of the rest, so that no path leads through it.
        have hrest := ih hb.2 (htail ▸ ⟨by simp, by simp⟩) (first + 1) (by simpa using hn)
        simp [hnone] at hrest
    | cons opened others =>
      rw [htail, breaksLast_cons (by simp)] at h
      cases number with
      | zero =>
        obtain rfl : head = node := by simpa using hn
        exact absurd (hb.1.2 path hpath) h.1
      | succ number =>
        obtain ⟨hlast, hbreak⟩ := ih hb.2 (htail ▸ h.2) (first + 1) (by simpa using hn)
        rw [htail] at hbreak
        exact ⟨by simp [hlast, Nat.add_assoc, Nat.add_comm 1], by simpa using hbreak⟩

theorem breaksOut_of_isStatement {node : Node} (hg : node.Grammatical) (hs : node.isStatement)
    {path : List Nat} (h : node.leadsToBreak path) : node.breaksOut := by
  refine breaksOut_of_leadsToBreak hg ?_ ?_ h <;> (cases node <;> first | rfl | cases hs)

theorem endsInBreak {node : Node} (hg : node.Grammatical) (hs : node.isStatement) :
    EndsInBreak node := by
  induction node using induction_on_children with
  | h node ih =>
    intro h path hpath
    have hbreaks := breaksOut_of_isStatement hg hs hpath
    unfold openBlock at h ⊢
    split at h
    · rename_i body
      have hfits := (grammatical_iff.1 hg).1
      simp only [fits, List.all_eq_true] at hfits
      cases path with
      | nil => cases hpath
      | cons number path =>
        obtain ⟨-, child, hchild, hpath⟩ := leadsToBreak_cons.1 hpath
        have hbody : ∀ s ∈ body, EndsInBreak s ∧ ∀ path, s.leadsToBreak path → s.breaksOut :=
          fun s hm => ⟨ih s hm (hg.child hm) (hfits s hm),
            fun path => breaksOut_of_isStatement (hg.child hm) (hfits s hm)⟩
        simpa [lastPath] using lastPathFrom_of_leadsToBreak hbody h 0 hchild hpath
    · rename_i hblock
      have hbreak : node.isBreak := h.2 node (by simp) hbreaks
      cases node with
      | breakStatement =>
        cases path with
        | nil => simp [lastPath]
        | cons number path => simp [leadsToBreak, children] at hpath
      | _ => cases hbreak

/-- The way to the last statement of a list leads to the last statement of one of its members. -/
theorem lastPathFrom_eq_some {first : Nat} {body : List Node} {path : List Nat}
    (h : lastPathFrom first body = some path) :
    ∃ number node rest, body[number]? = some node ∧ path = (first + number) :: rest ∧
      node.lastPath = some rest := by
  induction body generalizing first with
  | nil => simp [lastPathFrom] at h
  | cons head tail ih =>
    rw [lastPathFrom, Option.or_eq_some_iff] at h
    rcases h with h | ⟨-, h⟩
    · obtain ⟨number, node, rest, hn, rfl, hlast⟩ := ih h
      exact ⟨number + 1, node, rest, by simpa using hn, by simp [Nat.add_assoc, Nat.add_comm 1],
        hlast⟩
    · obtain ⟨rest, hlast, rfl⟩ := Option.map_eq_some_iff.1 h
      exact ⟨0, head, rest, rfl, rfl, hlast⟩

/-- The way to the last statement of a statement leads through blocks only. -/
theorem isBlock_of_mem_passed {m node : Node} {path : List Nat} (h : node.lastPath = some path)
    (hm : m ∈ node.passed path) : m.isBlock := by
  induction path generalizing node with
  | nil => simp [passed] at hm
  | cons number path ih =>
    cases node with
    | blockStatement body =>
      obtain ⟨number', child, rest, hchild, heq, hlast⟩ := lastPathFrom_eq_some h
      obtain ⟨rfl, rfl⟩ := List.cons.inj heq
      rcases List.mem_cons.1 hm with rfl | hm
      · rfl
      · exact ih hlast (by simpa [children, hchild] using hm)
    | _ => simp [lastPath] at h

/-! ### Scripts -/

theorem containsBreak_of_not_refusesClauses {cases : List Node} {test : Option Node}
    {consequent : List Node} (h : ¬refusesClauses cases)
    (hc : .switchCase test consequent ∈ cases) :
    containsBreak (clauseBody consequent) = false := by
  fun_induction refusesClauses cases with
  | case1 => cases hc
  | case2 test' consequent' rest ih =>
    simp only [Bool.or_eq_true, not_or, Bool.not_eq_true] at h ih
    rcases List.mem_cons.1 hc with heq | hc
    · obtain ⟨rfl, rfl⟩ := Node.switchCase.inj heq
      exact h.1.2
    · exact ih h.2 hc
  | case3 node rest hne ih =>
    rcases List.mem_cons.1 hc with heq | hc
    · exact absurd heq.symm (hne _ _)
    · exact ih h hc

/-- No path leads from an expression to a `break` of the `switch` around it. -/
theorem not_leadsToBreak_of_isExpression {node : Node} (hg : node.Grammatical)
    (he : node.isExpression) (path : List Nat) : ¬node.leadsToBreak path := by
  intro h
  have hbreaks : node.breaksOut := by
    refine breaksOut_of_leadsToBreak hg ?_ ?_ h <;> (cases node <;> first | rfl | cases he)
  have hclasses := classes_of_breaksOut hbreaks
  simp [he] at hclasses

/-- In a grammatical clause without a `break` before its end, every `break` is the last
statement. -/
theorem clauseEnd_of_leadsToBreak {test : Option Node} {consequent : List Node}
    (hg : (Node.switchCase test consequent).Grammatical)
    (h : containsBreak (clauseBody consequent) = false) {path : List Nat}
    (hpath : (Node.switchCase test consequent).leadsToBreak path) :
    (Node.switchCase test consequent).clauseEnd = some path ∧
      openLastBlock consequent = clauseBody consequent ++ [.breakStatement] ∧
      ∀ m ∈ ((Node.switchCase test consequent).passed path).tail, m.isBlock := by
  have hfits := (grammatical_iff.1 hg).1
  simp only [fits, Bool.and_eq_true, Option.all_eq_true, List.all_eq_true] at hfits
  cases path with
  | nil => cases hpath
  | cons number path =>
    obtain ⟨-, child, hchild, hpath⟩ := leadsToBreak_cons.1 hpath
    have hpassed : ((Node.switchCase test consequent).passed (number :: path)).tail =
        child.passed path := by
      simp [passed, hchild]
    rw [hpassed]
    simp only [children] at hchild
    rcases Nat.lt_or_ge number test.toList.length with hlt | hge
    · -- The test is an expression.
      rw [List.getElem?_append_left hlt] at hchild
      have hm := List.mem_of_getElem? hchild
      exact absurd hpath (not_leadsToBreak_of_isExpression (hg.child (by simp_all [children]))
        (hfits.1 child (Option.mem_toList.1 hm)) path)
    · rw [List.getElem?_append_right hge] at hchild
      have hbody : ∀ s ∈ consequent, EndsInBreak s ∧ ∀ path, s.leadsToBreak path → s.breaksOut :=
        fun s hm =>
          have hs : s.Grammatical := hg.child (by simp [children, hm])
          ⟨endsInBreak hs (hfits.2 s hm), fun path => breaksOut_of_isStatement hs (hfits.2 s hm)⟩
      obtain ⟨hlast, hbreak⟩ := lastPathFrom_of_leadsToBreak hbody (breaksLast_of_clauseBody h)
        test.toList.length hchild hpath
      rw [Nat.add_sub_cancel' hge] at hlast
      refine ⟨hlast, ?_, fun m hm => ?_⟩
      · have hdropped : clauseBody consequent = (openLastBlock consequent).dropLast := by
          simp [clauseBody, hbreak, isBreak]
        rw [hdropped]
        exact (List.dropLast_append_getLast? _ hbreak).symm
      · obtain ⟨number', node, rest, hn, heq, hrest⟩ := lastPathFrom_eq_some hlast
        obtain ⟨rfl, rfl⟩ := List.cons.inj heq
        rw [Nat.add_sub_cancel_left, hn] at hchild
        obtain rfl := Option.some.inj hchild
        exact isBlock_of_mem_passed hrest hm

/-- In a script that has a form, every `break` of a `switch` is the last statement of its clause
once the blocks at the end of the clause are opened up. A script with any other `break`, be it below
something that is no block or followed by another statement, has no form. -/
theorem toProgram_breaks (node : Node) (h : node.IsScript) (scope : Scope) (discriminant : Node)
    (cases : List Node) (hs : .switchStatement discriminant cases ∈ node.subtrees) (clause : Node)
    (hc : clause ∈ cases) (path : List Nat) (hpath : clause.leadsToBreak path) :
    (∀ form, node.toProgram scope = .ok form → clause.clauseEnd = some path ∧
      openLastBlock clause.clauseStatements =
        clauseBody clause.clauseStatements ++ [.breakStatement]) ∧
    (clause.clauseEnd ≠ some path ∨ (∃ m ∈ (clause.passed path).tail, ¬m.isBlock) →
      ∃ fault, node.toProgram scope = .error fault) := by
  have hg := h.2.subtree hs
  have hfits := (grammatical_iff.1 hg).1
  simp only [fits, Bool.and_eq_true, List.all_eq_true] at hfits
  have hclause := hg.child (List.mem_cons_of_mem _ hc)
  cases clause with
  | switchCase test consequent =>
    have hlast : ∀ form, node.toProgram scope = .ok form → _ := fun form hform =>
      clauseEnd_of_leadsToBreak hclause (containsBreak_of_not_refusesClauses
        ((succeeds_toProgram scope h).1 ⟨form, hform⟩ _ hs) hc) hpath
    refine ⟨fun form hform => ⟨(hlast form hform).1, (hlast form hform).2.1⟩, fun hearly => ?_⟩
    cases hresult : node.toProgram scope with
    | error fault => exact ⟨fault, rfl⟩
    | ok form =>
      obtain ⟨hend, -, hblocks⟩ := hlast form hresult
      rcases hearly with hearly | ⟨m, hm, hblock⟩
      · exact absurd hend hearly
      · exact absurd (hblocks m hm) hblock
  | _ => cases hfits.2 _ hc

/-- The script `switch (a) { ... }` with a single clause. -/
def clauseScript (clause : Node) : Node :=
  .program [.switchStatement (.identifier "a") [clause]]

/-- The clause `case 1: f(() => { switch (b) { default: c; break; } }); { { break; } {} }`. -/
def nestedClause : Node :=
  .switchCase (some (.numericLiteral "1")) [
    .expressionStatement (.callExpression (.identifier "f") [.arrowFunctionExpression []
      (.blockStatement [.switchStatement (.identifier "b") [.switchCase none [
        .expressionStatement (.identifier "c") [], .breakStatement]]])]) [],
    .blockStatement [.blockStatement [.breakStatement], .blockStatement []]]

/-- The clause `default: if (b) break;`. -/
def guardClause : Node :=
  .switchCase none [.ifStatement (.identifier "b") .breakStatement none]

theorem switch_mem_clauseScript (clause : Node) :
    .switchStatement (.identifier "a") [clause] ∈ (clauseScript clause).subtrees :=
  mem_subtrees_of_mem_descendants
    (mem_descendants_of_mem_children (by simp [clauseScript, children]))

/-- The `break` in the blocks at the end of `nestedClause` is its last statement, and the one in the
condition of `guardClause` is refused. -/
theorem toProgram_clauseScript :
    ((clauseScript nestedClause).IsScript ∧ nestedClause.leadsToBreak [2, 0, 0] ∧
      (∃ form, (clauseScript nestedClause).toProgram NameSet.host.scope = .ok form) ∧
      nestedClause.clauseEnd = some [2, 0, 0]) ∧
    ((clauseScript guardClause).IsScript ∧ guardClause.leadsToBreak [0, 1] ∧
      ∃ fault, (clauseScript guardClause).toProgram NameSet.host.scope = .error fault) := by
  have hnested : (clauseScript nestedClause).IsScript := ⟨rfl, by unfold Grammatical; decide⟩
  have hguard : (clauseScript guardClause).IsScript := ⟨rfl, by unfold Grammatical; decide⟩
  have hpath : nestedClause.leadsToBreak [2, 0, 0] := rfl
  have hform : ∃ form, (clauseScript nestedClause).toProgram NameSet.host.scope = .ok form :=
    ⟨_, rfl⟩
  refine ⟨⟨hnested, hpath, hform, ?_⟩, hguard, rfl, ?_⟩
  · obtain ⟨form, hform⟩ := hform
    exact ((toProgram_breaks _ hnested _ _ _ (switch_mem_clauseScript _) _ (by simp) _ hpath).1
      form hform).1
  · exact (toProgram_breaks _ hguard _ _ _ (switch_mem_clauseScript _) guardClause (by simp) [0, 1]
      rfl).2 (.inl (by decide))

end ScriptForms.Node
