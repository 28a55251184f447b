import Mathlib.Data.List.TakeWhile
import ScriptForms.Proofs.Switch.Group

/-!
# Which clause a value gets to

A `switch` goes to the clause whose test equals its value, or else to the default clause, and from
there on to the first clause that has statements. The groups of clauses with a common body tell the
same: the value gets to the statements of the group that has its test, or else to those of the
default clause.

* `Node.completesAll`: whether control can get to the end of statements.
* `Node.IsTrimmed`: what is left of the statements of a clause without the `break` at its end.
* `Node.reached`: the clauses from the one on whose statements a `switch` runs.
* `Node.groups_reached`: groups against clauses.
-/

namespace ScriptForms

namespace Node

/-! ### Control -/

mutual

/-- Whether control can get to the end of a statement: not if it leaves on every way through it. -/
def completes : Node → Bool
  | .breakStatement | .returnStatement _ | .throwStatement _ => false
  | .blockStatement body => completesAll body
  | .ifStatement _ consequent alternate => completes consequent || completesOr true alternate
  | .tryStatement block handler finalizer =>
    (completes block || completesOr false handler) && completesOr true finalizer
  | .catchClause _ body => completes body
  | _ => true

/-- Whether control can get to the end of a statement list. -/
def completesAll : List Node → Bool
  | [] => true
  | node :: nodes => completes node && completesAll nodes

/-- `completes` for a statement that may be absent. -/
def completesOr (absent : Bool) : Option Node → Bool
  | none => absent
  | some node => completes node

end

theorem completesAll_of_endsWithExit {body : List Node}
    (hexit : ∀ node ∈ body, node.isExit → node.completes = false) (h : endsWithExit body) :
    completesAll body = false := by
  induction body with
  | nil => cases h
  | cons node nodes ih =>
    rw [List.forall_mem_cons] at hexit
    cases nodes with
    | nil => rw [completesAll, hexit.1 h, Bool.false_and]
    | cons other nodes => rw [completesAll, ih hexit.2 h, Bool.and_false]

theorem completes_of_isExit {node : Node} (h : node.isExit) : node.completes = false := by
  induction node using induction_on_children with
  | h node ih =>
    cases node with
    | breakStatement | returnStatement argument | throwStatement argument => rfl
    | blockStatement body => exact completesAll_of_endsWithExit ih h
    | _ => cases h

/-! ### The end of a clause -/

/-- Statements with the block at their end opened up, over and over until they end in none. -/
inductive Opens : List Node → List Node → Prop
  | done {body : List Node} (h : ∀ inner, body.getLast? ≠ some (.blockStatement inner)) :
    Opens body body
  | block {front inner body : List Node} (h : Opens (front ++ inner) body) :
    Opens (front ++ [.blockStatement inner]) body

/-- The statements of a clause with the blocks at their end opened up, less a `break` at the end. -/
def IsTrimmed (consequent body : List Node) : Prop :=
  ∃ opened, Opens consequent opened ∧
    (opened = body ++ [.breakStatement] ∨
      opened = body ∧ body.getLast? ≠ some .breakStatement)

theorem Opens.getLast?_ne {consequent body : List Node} (h : Opens consequent body)
    (inner : List Node) : body.getLast? ≠ some (.blockStatement inner) := by
  induction h with
  | done h => exact h inner
  | block _ ih => exact ih

theorem Opens.append {consequent opened : List Node} (h : Opens consequent opened)
    {front body : List Node} (h' : Opens (front ++ opened) body) :
    Opens (front ++ consequent) body := by
  induction h with
  | done => exact h'
  | @block before inner opened _ ih =>
    rw [← List.append_assoc]
    exact .block (by simpa using ih h')

/-- `openLastBlock` opens up every block at the end of statements. -/
theorem opens_openLastBlock {body : List Node}
    (h : ∀ node ∈ body, Opens [node] (openBlock node)) : Opens body (openLastBlock body) := by
  induction body with
  | nil => exact .done (by simp)
  | cons node nodes ih =>
    rw [List.forall_mem_cons] at h
    have hnodes := ih h.2
    rw [openLastBlock]
    split
    · -- Nothing is left behind the node, so it is at the end itself.
      rename_i hnil
      rw [hnil] at hnodes
      exact @Opens.append _ _ hnodes [node] _ h.1
    · rename_i hne
      refine @Opens.append _ _ hnodes [node] _ (.done fun inner => ?_)
      rw [List.singleton_append, List.getLast?_cons_of_ne_nil hne]
      exact hnodes.getLast?_ne inner

theorem opens_openBlock (node : Node) : Opens [node] (openBlock node) := by
  induction node using induction_on_children with
  | h node ih =>
    cases node with
    | blockStatement body => exact @Opens.block [] body _ (opens_openLastBlock ih)
    | _ => exact .done (by simp)

theorem isTrimmed_clauseBody (consequent : List Node) :
    IsTrimmed consequent (clauseBody consequent) := by
  refine ⟨openLastBlock consequent, opens_openLastBlock fun node _ => opens_openBlock node, ?_⟩
  simp only [clauseBody]
  generalize openLastBlock consequent = opened
  by_cases hbreak : opened.getLast?.any isBreak
  · obtain ⟨last, hlast, hlast'⟩ := (Option.any_eq_true ..).1 hbreak
    rw [if_pos hbreak]
    cases last with
    | breakStatement => exact .inl (List.dropLast_append_getLast? _ hlast).symm
    | _ => cases hlast'
  · rw [if_neg hbreak]
    refine .inr ⟨rfl, fun hlast => hbreak ?_⟩
    rw [hlast]
    rfl

/-! ### Clauses that are reached -/

/-- The clauses from the one on where a `switch` goes. The value is given by the tests that it
equals: it gets to the clause of such a test, or else to the default clause. -/
def entered (equals : Node → Bool) (cases : List Node) : List Node :=
  match cases.dropWhile fun clause => !clause.clauseTest?.any equals with
  | [] => cases.dropWhile fun clause => !clause.isDefaultClause
  | found => found

/-- The clauses from the first one on that has statements. -/
def withStatements (cases : List Node) : List Node :=
  cases.dropWhile fun clause => clause.clauseStatements.isEmpty

/-- The clauses from the one on whose statements a `switch` runs. -/
def reached (equals : Node → Bool) (cases : List Node) : List Node :=
  withStatements (entered equals cases)

/-- The statements of the first clause that has some. -/
def firstStatements (cases : List Node) : List Node :=
  (withStatements cases).head?.elim [] clauseStatements

variable {equals : Node → Bool} {clause : Node} {rest : List Node}

@[simp] theorem firstStatements_nil : firstStatements [] = [] := rfl

theorem firstStatements_cons_nil (test : Option Node) (rest : List Node) :
    firstStatements (.switchCase test [] :: rest) = firstStatements rest := by
  simp [firstStatements, withStatements, clauseStatements]

theorem firstStatements_cons (test : Option Node) {consequent : List Node} (h : consequent ≠ [])
    (rest : List Node) : firstStatements (.switchCase test consequent :: rest) = consequent := by
  simp [firstStatements, withStatements, clauseStatements, h]

theorem entered_cons_of_equals (h : clause.clauseTest?.any equals) :
    entered equals (clause :: rest) = clause :: rest := by
  simp [entered, h]

theorem entered_cons_of_not (h : clause.clauseTest?.any equals = false)
    (hd : clause.isDefaultClause = false) :
    entered equals (clause :: rest) = entered equals rest := by
  simp [entered, h, hd]

theorem dropWhile_clauseTest_eq_nil {cases : List Node} :
    cases.dropWhile (fun clause => !clause.clauseTest?.any equals) = [] ↔
      (clauseTests cases).any equals = false := by
  rw [List.dropWhile_eq_nil_iff, List.any_eq_false]
  constructor
  · intro h test htest
    obtain ⟨clause, hclause, heq⟩ := List.mem_filterMap.1 htest
    simpa [heq] using h clause hclause
  · intro h clause hclause
    cases heq : clause.clauseTest? with
    | none => rfl
    | some test => simpa using h test (List.mem_filterMap.2 ⟨clause, hclause, heq⟩)

/-- A test that the value equals is found in spite of the clauses in front of it. -/
theorem entered_cons_of_later (h : clause.clauseTest?.any equals = false)
    (hlater : (clauseTests rest).any equals) :
    entered equals (clause :: rest) = entered equals rest := by
  rw [entered, entered, List.dropWhile_cons, h, Bool.not_false, if_pos rfl]
  split
  · rename_i hnil
    rw [dropWhile_clauseTest_eq_nil.1 hnil] at hlater
    cases hlater
  · rfl

theorem entered_of_none {cases : List Node} (h : (clauseTests cases).any equals = false) :
    entered equals cases = cases.dropWhile fun clause => !clause.isDefaultClause := by
  rw [entered, dropWhile_clauseTest_eq_nil.2 h]

theorem defaultStatements?_eq_none {cases : List Node} (h : cases.countP isDefaultClause = 0) :
    defaultStatements? cases = none := by
  induction cases with
  | nil => rfl
  | cons clause rest ih =>
    rw [List.countP_cons] at h
    have hclause : clause.isDefaultClause = false := by
      by_contra hd
      simp [hd] at h
    rw [defaultStatements?, ih (by omega), hclause]
    rfl

/-- A value that equals at most one of several different tests. -/
theorem countP_le_one {tests : List Node} (hnodup : tests.Nodup)
    (hequals : ∀ s ∈ tests, ∀ t ∈ tests, equals s → equals t → s = t) :
    tests.countP equals ≤ 1 := by
  rw [List.countP_eq_length_filter]
  have hnodup := hnodup.filter equals
  match hfilter : tests.filter equals with
  | [] | [_] => simp
  | s :: t :: others =>
    have hs : s ∈ tests.filter equals := by simp [hfilter]
    have ht : t ∈ tests.filter equals := by simp [hfilter]
    rw [List.mem_filter] at hs ht
    rw [hfilter, hequals s hs.1 t ht.1 hs.2 ht.2] at hnodup
    simp at hnodup

/-! ### Groups that are chosen -/

/-- The groups with a test that the value equals have the target as their statements; if there is no
such group, the default clause has. -/
def GroupsChoose (equals : Node → Bool) (groups : List ClauseGroup) (default : Option (List Node))
    (target : List Node) : Prop :=
  (∀ group ∈ groups, group.tests.any equals → group.statements = target) ∧
    ((∀ group ∈ groups, group.tests.any equals = false) → default = some target)

variable {groups : List ClauseGroup} {group : ClauseGroup} {default : Option (List Node)}
  {target pending cases : List Node}

theorem groupsChoose_default (h : ∀ group ∈ groups, group.tests.any equals = false)
    (hdefault : default = some target) : GroupsChoose equals groups default target := by
  refine ⟨fun group hgroup hequals => ?_, fun _ => hdefault⟩
  rw [h group hgroup] at hequals
  cases hequals

theorem groupsChoose_cons (hequals : group.tests.any equals) (htarget : group.statements = target)
    (h : ∀ other ∈ groups, other.tests.any equals = false) :
    GroupsChoose equals (group :: groups) default target := by
  refine ⟨List.forall_mem_cons.2 ⟨fun _ => htarget, fun other hother hown => ?_⟩, fun hnone => ?_⟩
  · rw [h other hother] at hown
    cases hown
  · rw [hnone group List.mem_cons_self] at hequals
    cases hequals

theorem GroupsChoose.cons (hequals : group.tests.any equals = false)
    (h : GroupsChoose equals groups default target) :
    GroupsChoose equals (group :: groups) default target := by
  refine ⟨List.forall_mem_cons.2 ⟨fun hown => ?_, h.1⟩, fun hnone => h.2 fun other hother =>
    hnone other (List.mem_cons_of_mem _ hother)⟩
  rw [hequals] at hown
  cases hown

/-- Groups of clauses none of whose tests the value equals. -/
theorem any_eq_false_of_mem_clauseGroups (h : (clauseTests cases).any equals = false) :
    ∀ group ∈ clauseGroups [] cases, group.tests.any equals = false := by
  intro group hgroup
  rw [List.any_eq_false] at h ⊢
  intro test htest
  exact h test (by simpa using mem_of_mem_clauseGroups hgroup htest)

/-- The default clause of clauses is not empty, and there is at most one. -/
structure HasOneDefault (cases : List Node) : Prop where
  clauses : ∀ clause ∈ cases, clause.isClause
  statements : ∀ clause ∈ cases, clause.isDefaultClause → clause.clauseStatements ≠ []
  single : cases.countP isDefaultClause ≤ 1

theorem HasOneDefault.tail (h : HasOneDefault (clause :: rest)) : HasOneDefault rest where
  clauses := fun other hother => h.clauses other (List.mem_cons_of_mem _ hother)
  statements := fun other hother => h.statements other (List.mem_cons_of_mem _ hother)
  single := Nat.le_trans (List.Sublist.countP_le (List.sublist_cons_self _ _)) h.single

/-- Behind the default clause there is no other. -/
theorem HasOneDefault.defaultStatements? {consequent : List Node}
    (h : HasOneDefault (.switchCase none consequent :: rest)) :
    Node.defaultStatements? rest = none ∧
      Node.defaultStatements? (.switchCase none consequent :: rest) = some consequent := by
  have hsingle := h.single
  rw [List.countP_cons_of_pos rfl] at hsingle
  have hzero : rest.countP isDefaultClause = 0 := by omega
  have hnone := defaultStatements?_eq_none hzero
  exact ⟨hnone, by rw [Node.defaultStatements?, hnone]; rfl⟩

theorem defaultStatements?_cons_some (test : Node) (consequent rest : List Node) :
    defaultStatements? (.switchCase (some test) consequent :: rest) = defaultStatements? rest := by
  cases h : defaultStatements? rest <;> simp [defaultStatements?, isDefaultClause, h]

/-- Clauses without statements in front lead on to the first clause that has some. -/
theorem groupsChoose_pending (hone : HasOneDefault cases) (hpending : pending.any equals)
    (htests : (clauseTests cases).any equals = false) :
    GroupsChoose equals (clauseGroups pending cases) (defaultStatements? cases)
      (firstStatements cases) := by
  fun_induction clauseGroups pending cases with
  | case1 pending hempty =>
    rw [List.isEmpty_iff.1 hempty] at hpending
    cases hpending
  | case2 pending hempty => exact groupsChoose_cons hpending rfl (by simp)
  | case3 pending consequent rest ih =>
    have hstatements : consequent ≠ [] := hone.statements _ List.mem_cons_self rfl
    refine groupsChoose_default (any_eq_false_of_mem_clauseGroups htests) ?_
    rw [hone.defaultStatements?.2, firstStatements_cons none hstatements]
  | case4 pending test rest ih =>
    rw [clauseTests_cons_some, List.any_cons, Bool.or_eq_false_iff] at htests
    rw [defaultStatements?_cons_some, firstStatements_cons_nil]
    exact ih hone.tail (by simp [hpending]) htests.2
  | case5 pending test consequent rest hne ih =>
    rw [clauseTests_cons_some, List.any_cons, Bool.or_eq_false_iff] at htests
    rw [firstStatements_cons (some test) hne]
    exact groupsChoose_cons (by simp [hpending]) rfl (any_eq_false_of_mem_clauseGroups htests.2)
  | case6 pending clause rest hdefault _ htest ih =>
    have hclause := hone.clauses clause List.mem_cons_self
    rw [isClause_eq_false hdefault htest] at hclause
    cases hclause

/-- The clause whose test the value equals leads on to the first clause that has statements. -/
theorem groupsChoose_entered (hone : HasOneDefault cases) (hpending : pending.any equals = false)
    (htests : (clauseTests cases).countP equals = 1) :
    GroupsChoose equals (clauseGroups pending cases) (defaultStatements? cases)
      (firstStatements (entered equals cases)) := by
  fun_induction clauseGroups pending cases with
  | case1 | case2 => simp at htests
  | case3 pending consequent rest ih =>
    have hlater : (clauseTests rest).any equals := by
      rw [List.any_eq_true]
      exact List.countP_pos_iff.1 (Nat.lt_of_lt_of_eq Nat.zero_lt_one htests.symm)
    rw [entered_cons_of_later rfl hlater]
    have hrest := ih hone.tail rfl htests
    refine ⟨hrest.1, fun hnone => ?_⟩
    rw [defaultStatements?, hrest.2 hnone]
    rfl
  | case4 pending test rest ih =>
    rw [clauseTests_cons_some, List.countP_cons] at htests
    rw [defaultStatements?_cons_some]
    by_cases htest : equals test
    · -- Control goes on from this clause, which has no statements.
      have hrest : (clauseTests rest).any equals = false := by
        rw [if_pos htest] at htests
        rw [List.any_eq_false]
        exact List.countP_eq_zero.1 (by omega)
      rw [entered_cons_of_equals (by simpa [clauseTest?] using htest), firstStatements_cons_nil]
      exact groupsChoose_pending hone.tail (by simp [htest]) hrest
    · rw [entered_cons_of_not (by simpa [clauseTest?] using htest) rfl]
      rw [if_neg htest] at htests
      exact ih hone.tail (by simpa [hpending] using htest) htests
  | case5 pending test consequent rest hne ih =>
    rw [clauseTests_cons_some, List.countP_cons] at htests
    by_cases htest : equals test
    · have hrest : (clauseTests rest).any equals = false := by
        rw [if_pos htest] at htests
        rw [List.any_eq_false]
        exact List.countP_eq_zero.1 (by omega)
      rw [entered_cons_of_equals (by simpa [clauseTest?] using htest),
        firstStatements_cons (some test) hne]
      exact groupsChoose_cons (by simp [htest]) rfl (any_eq_false_of_mem_clauseGroups hrest)
    · rw [entered_cons_of_not (by simpa [clauseTest?] using htest) rfl,
        defaultStatements?_cons_some]
      rw [if_neg htest] at htests
      have hrest := ih hone.tail rfl htests
      exact hrest.cons (by simpa [hpending] using htest)
  | case6 pending clause rest hdefault _ htest ih =>
    have hclause := hone.clauses clause List.mem_cons_self
    rw [isClause_eq_false hdefault htest] at hclause
    cases hclause

/-- A value that equals no test gets to the default clause. -/
theorem defaultStatements?_entered (hone : HasOneDefault cases)
    (htests : (clauseTests cases).any equals = false) :
    (defaultStatements? cases).getD [] = firstStatements (entered equals cases) := by
  induction cases with
  | nil => rfl
  | cons clause rest ih =>
    cases clause with
    | switchCase test consequent =>
      cases test with
      | none =>
        have hstatements : consequent ≠ [] := hone.statements _ List.mem_cons_self rfl
        rw [hone.defaultStatements?.2, entered_of_none htests,
          List.dropWhile_cons_of_neg (by simp [isDefaultClause]),
          firstStatements_cons none hstatements]
        rfl
      | some test =>
        rw [clauseTests_cons_some, List.any_cons, Bool.or_eq_false_iff] at htests
        rw [defaultStatements?_cons_some,
          entered_cons_of_not (by simpa [clauseTest?] using htests.1) rfl]
        exact ih hone.tail htests.2
    | _ =>
      have hclause := hone.clauses _ List.mem_cons_self
      cases hclause

/-- The groups that the value is in have the statements that are reached, and so has the default
clause if the value is in none. -/
theorem groups_reached (hone : HasOneDefault cases)
    (htests : (clauseTests cases).countP equals ≤ 1) :
    (∀ group ∈ clauseGroups [] cases, group.tests.any equals →
      group.statements = firstStatements (entered equals cases)) ∧
    ((∀ group ∈ clauseGroups [] cases, group.tests.any equals = false) →
      (defaultStatements? cases).getD [] = firstStatements (entered equals cases)) := by
  by_cases hnone : (clauseTests cases).any equals = false
  · refine ⟨fun group hgroup hequals => ?_, fun _ => defaultStatements?_entered hone hnone⟩
    rw [any_eq_false_of_mem_clauseGroups hnone group hgroup] at hequals
    cases hequals
  · have hpos : 0 < (clauseTests cases).countP equals := by
      rw [List.countP_pos_iff]
      simpa using hnone
    have hcount : (clauseTests cases).countP equals = 1 := by omega
    have hchoose := groupsChoose_entered hone List.any_nil hcount
    exact ⟨hchoose.1, fun hgroups => by rw [hchoose.2 hgroups]; rfl⟩

theorem entered_suffix (equals : Node → Bool) (cases : List Node) :
    entered equals cases <:+ cases := by
  unfold entered
  split
  · exact List.dropWhile_suffix _
  · exact List.dropWhile_suffix _

/-- The clause that is reached has statements and is one of the clauses. -/
theorem reached_eq_cons {later : List Node} (h : reached equals cases = clause :: later) :
    clause.clauseStatements ≠ [] ∧ ∃ front, front ++ clause :: later = cases := by
  rw [reached, withStatements] at h
  constructor
  · have hhead := List.head?_dropWhile_not (fun clause => clause.clauseStatements.isEmpty)
      (entered equals cases)
    rw [h] at hhead
    simpa using hhead
  · change clause :: later <:+ cases
    rw [← h]
    exact (List.dropWhile_suffix _).trans (entered_suffix equals cases)

end Node

end ScriptForms
