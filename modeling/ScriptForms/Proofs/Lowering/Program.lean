import ScriptForms.Proofs.Lowering.Expression
import ScriptForms.Proofs.Node.Shape
import ScriptForms.Transform

/-!
# Every tree that is read is well shaped

Let a reader keep what the grammar promises. The rules are tied together by the depth of nesting, so
that what each of them gives over sound rules is given at every depth. At the top of a program
comments are attached to statements; everything below stays as the rules give it.

* `Lowering.sound_lower`: the rules are sound.
* `Lowering.isTopStatement_topStatements`: the statements at the top of a program.
* `parse_isWellShaped`: every tree that is read from a source is well shaped.
-/

namespace ScriptForms

open Text (IsTrimmedLine)

namespace Lowering

open Node ScriptForms.Tree

variable {source : List Char} {root : Tree}

/-! ### The rules tied together -/

section Step

variable (source : List Char) (lower : Lower)

theorem isSome_statementRule? {kind : String} (hk : kind ∈ statementKinds) :
    (statementRule? source lower kind).isSome := by
  have hall : statementKinds.all fun kind => (statementRule? source lower kind).isSome := rfl
  exact List.all_eq_true.1 hall kind hk

theorem isSome_expressionRule? {kind : String} (hk : kind ∈ ruleKinds)
    (hs : kind ∉ statementKinds) : (expressionRule? source lower kind).isSome := by
  have hall : (expressionKinds ++
      ["spread_element", "jsx_attribute", "jsx_expression", "jsx_text"]).all fun kind =>
      (expressionRule? source lower kind).isSome := rfl
  refine List.all_eq_true.1 hall kind ?_
  rw [ruleKinds, List.append_assoc, List.mem_append] at hk
  exact hk.resolve_left hs

/-- One more step over sound rules. -/
theorem sound_step {source : List Char} {lower : Lower} (hl : Sound source lower) :
    Sound source (step source lower) := by
  intro tree ht hw
  unfold step
  cases hs : statementRule? source lower tree.kind with
  | some rule => exact yields_statementRule hl ht hs
  | none =>
    have hstatement : tree.kind ∉ statementKinds := by
      intro hk
      have := isSome_statementRule? source lower hk
      simp [hs] at this
    cases he : expressionRule? source lower tree.kind with
    | some rule => exact yields_expressionRule hl ht hw he
    | none =>
      have hrule : ruleKinds.contains tree.kind = false := by
        by_contra hk
        have := isSome_expressionRule? source lower (by simpa using hk) hstatement
        simp [he] at this
      rw [classOf_of_not_contains hrule]
      exact yields_pure (properIn_unsupported fun _ _ => rfl)

end Step

theorem sound_lowerWithin (depth : Nat) : Sound source (lowerWithin source depth) := by
  induction depth with
  | zero => exact fun _ _ _ => yields_error _
  | succ depth ih => exact sound_step ih

theorem sound_lower : Sound source (Lowering.lower source) :=
  fun tree ht hw => sound_lowerWithin tree.size tree ht hw

/-! ### The top of a program -/

/-- Comments are attached line by line, and to expression statements only. -/
theorem isTopStatement_topStatements {trees : List Tree} {pending : List String}
    {lastRow : Option Nat} (hp : ∀ line ∈ pending, IsTrimmedLine line.toList)
    (hcomments : ∀ t ∈ trees, t.kind = "comment" → Source.IsCommentText (t.text source))
    (hstatements : ∀ t ∈ trees, t.kind ≠ "comment" →
      Yields (Lowering.lower source t) (ProperIn isStatement)) :
    Yields (topStatements source pending lastRow trees).1 fun nodes =>
      ∀ node ∈ nodes, node.IsTopStatement := by
  induction trees generalizing pending lastRow with
  | nil => exact yields_ok (by simp)
  | cons tree rest ih =>
    obtain ⟨hcomment, hcomments⟩ := List.forall_mem_cons.1 hcomments
    obtain ⟨hstatement, hstatements⟩ := List.forall_mem_cons.1 hstatements
    unfold topStatements
    split
    · rename_i hk
      split
      · exact ih hp hcomments hstatements
      · refine ih ?_ hcomments hstatements
        exact List.forall_mem_append.2
          ⟨hp, fun _ => Source.isTrimmedLine_of_mem_commentLines (hcomment hk)⟩
    · exact ih hp hcomments hstatements
    · rename_i hk _
      split
      · exact yields_error _
      · rename_i node hnode
        have htop := (hstatement hk node hnode).isTopStatement
        have hothers : Yields (topStatements source [] (some (row source tree.stop)) rest).1
            fun nodes => ∀ node ∈ nodes, node.IsTopStatement :=
          ih (by simp) hcomments hstatements
        generalize topStatements source [] (some (row source tree.stop)) rest = result at hothers
        obtain ⟨others, warnings⟩ := result
        cases others with
        | error cause => cases node <;> exact yields_error cause
        | ok nodes =>
          have hnodes := hothers nodes rfl
          cases node with
          | expressionStatement expression comments =>
            have hattached : (Node.expressionStatement expression pending).IsTopStatement :=
              ⟨rfl, htop.fits, rfl, hp, htop.below⟩
            exact yields_ok (List.forall_mem_cons.2 ⟨hattached, hnodes⟩)
          | _ => exact yields_ok (List.forall_mem_cons.2 ⟨htop, hnodes⟩)

/-- What a tree that follows the grammar has at the top. -/
theorem yields_program (h : root.FollowsGrammar source) :
    Yields (program source root).program Node.IsWellShaped := by
  have hstatements : ∀ t ∈ root.children.filter (·.isNamed), t.kind ≠ "comment" →
      Yields (Lowering.lower source t) (ProperIn isStatement) := by
    intro t ht hk
    obtain ⟨hc, hnamed⟩ := List.mem_filter.1 ht
    have hrow : (Slot.anywhere, Role.statement) ∈ rows "program" := by decide
    exact sound_lower.yields_slot h.regular h.isProgram hrow (List.mem_filter.2 ⟨hc, by simp_all⟩)
  have hcomments : ∀ t ∈ root.children.filter (·.isNamed), t.kind = "comment" →
      Source.IsCommentText (t.text source) := fun t ht =>
    h.comments t (mem_subtrees_of_mem_children (List.mem_filter.1 ht).1)
  have htop : Yields (topStatements source [] none (root.children.filter (·.isNamed))).1
      fun nodes => ∀ node ∈ nodes, node.IsTopStatement :=
    isTopStatement_topStatements (by simp) hcomments hstatements
  intro ast hast
  obtain ⟨body, hbody, rfl⟩ := map_eq_ok.1 hast
  exact isWellShaped_program (htop body hbody)

end Lowering

/-- What is read of a source without faults is the program of its concrete tree. -/
theorem Reader.read_eq_ok {reader : Reader} {source : String} {ast : Node}
    (h : (reader.read source).program = .ok ast) : ∃ root, reader source = some root ∧
      root.firstFault? = none ∧ (Lowering.program source.toList root).program = .ok ast := by
  unfold Reader.read at h
  split at h
  · cases h
  · rename_i root hroot
    split at h
    · cases h
    · exact ⟨root, hroot, ‹_›, h⟩

theorem parse_eq_ok {reader : Reader} {source : String} {ast : Node} :
    parse source reader = .ok ast ↔ (reader.read source).program = .ok ast := by
  unfold parse
  cases (reader.read source).program <;> simp [Except.mapError]

/-- Let a reader give a tree for a source that, if it has no fault, follows the grammar. Then what
is read from the source has the shape of a script. -/
theorem parse_isWellShaped (reader : Reader) (source : String)
    (hgrammar : ∀ root, reader source = some root → root.firstFault? = none →
      root.FollowsGrammar source.toList)
    (ast : Node) (h : parse source reader = .ok ast) : ast.IsWellShaped := by
  obtain ⟨root, hroot, hfault, hprogram⟩ := Reader.read_eq_ok (parse_eq_ok.1 h)
  exact Lowering.yields_program (hgrammar root hroot hfault) ast hprogram

/-- A source with a comment, a spread, a template and an element. -/
def mixedSource : String := "// note\nf(...a, `x$\x7bb\x7d`);\nexport const e = <p>\x7br\x7d</p>;"

/-- What the usual reader gives for the source follows the grammar. -/
theorem parse_mixedSource :
    (∀ root, Source.reader mixedSource = some root → root.firstFault? = none →
      root.FollowsGrammar mixedSource.toList) ∧
    ∃ ast, parse mixedSource = .ok ast ∧
      ast.children.map Node.commentLines = [["note"], []] ∧ ast.IsWellShaped := by
  have hgrammar : ∀ root, Source.reader mixedSource = some root → root.firstFault? = none →
      root.FollowsGrammar mixedSource.toList := by
    have hall : (Source.reader mixedSource).all fun root =>
        decide (root.FollowsGrammar mixedSource.toList) := by decide +kernel
    intro root hroot _
    exact of_decide_eq_true ((Option.all_eq_true _ _).1 hall root hroot)
  have hread : (parse mixedSource).toOption.map (fun ast => ast.children.map Node.commentLines) =
      some [["note"], []] := by decide +kernel
  obtain ⟨ast, hast, hlines⟩ := Option.map_eq_some_iff.1 hread
  have hok : parse mixedSource = .ok ast := by
    cases hp : parse mixedSource with
    | error cause => simp [hp, Except.toOption] at hast
    | ok tree => simpa [hp, Except.toOption] using hast
  exact ⟨hgrammar, ast, hok, hlines,
    parse_isWellShaped Source.reader mixedSource hgrammar ast hok⟩

end ScriptForms
