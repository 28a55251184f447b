import ScriptForms.Proofs.Legibility
import ScriptForms.Proofs.Locality
import ScriptForms.Proofs.Shape.Convert
import ScriptForms.Proofs.Source.Comment

/-!
# Comments are no code

The comments above the statements of a script go into its text as they are, whatever they hold. The
text is nevertheless that of the script without its comments, with each group of comments directly
in front of the statement that it belongs to.

* `Node.uncommented`: a script without its comments.
* `Node.toText`: the text of a tree.
* `Node.codeTokens`: the tokens of the forms of a statement; none of them is a comment.
* `Node.toText_comments`: the tokens of a text with and without comments.
-/

namespace ScriptForms

open Node Form

/-! ### Tokens of comments and of items -/

namespace Token

/-- Whether a token is a comment. -/
def isComment : Token → Bool
  | .comment _ => true
  | _ => false

/-- The token of a comment line. -/
def ofCommentLine (line : String) : Token :=
  .comment (Text.trimEnd ([';', ';', ' '] ++ line.toList))

end Token

namespace Form

theorem tokensAll_eq_flatMap (forms : List Form) : tokensAll forms = forms.flatMap tokens := by
  induction forms with
  | nil => simp [tokensAll]
  | cons form forms ih => simp [tokensAll, ih]

theorem tokensAll_flatten (lists : List (List Form)) :
    tokensAll lists.flatten = lists.flatMap tokensAll := by
  induction lists with
  | nil => simp [tokensAll]
  | cons forms lists ih =>
    rw [List.flatten_cons, List.flatMap_cons, ← ih]
    simp only [tokensAll_eq_flatMap, List.flatMap_append]

/-- A comment among the tokens of a form is the form itself, or stands among the tokens of a
part. -/
theorem isComment_of_mem_tokens {form : Form} {token : Token} (hm : token ∈ form.tokens)
    (hc : token.isComment) : form.isComment ∨ ∃ part ∈ form.parts, token ∈ part.tokens := by
  have hcases : ∀ bracket, token ≠ .opening bracket ∧ token ≠ .closing bracket := by
    intro bracket
    constructor <;> rintro rfl <;> cases hc
  cases form with
  | comment text => exact .inl rfl
  | program children | list children | vector children | hashMap children =>
    simp only [tokens, tokensAll_eq_flatMap, List.cons_append, List.mem_cons, List.mem_append,
      List.mem_flatMap, List.not_mem_nil, or_false, hcases, false_or] at hm
    exact .inr hm
  | mapEntry key value =>
    refine .inr ?_
    simpa [tokens, parts] using hm
  | tagged tag form =>
    have hne : token ≠ .atom tag.toList := by
      rintro rfl
      cases hc
    refine .inr ⟨form, by simp [parts], ?_⟩
    simpa [tokens, hne] using hm
  | empty | leave => simp [tokens] at hm
  | _ =>
    simp only [tokens, List.mem_singleton] at hm
    subst hm
    cases hc

/-- Where everything stands where it may, there is no comment below a form that is no program. -/
theorem not_isComment_of_settled {form : Form} (hp : ¬form.isProgram) (hc : ¬form.isComment)
    (hs : form.Settled) : ∀ token ∈ form.tokens, token.isComment = false := by
  induction form using induction_on_parts with
  | h form ih =>
    intro token hm
    by_contra htoken
    rcases isComment_of_mem_tokens hm (by simpa using htoken) with hform | ⟨part, hpart, hm⟩
    · exact hc hform
    · obtain ⟨hplaced, hsettled⟩ := settled_iff.1 hs part hpart
      have hcomment : ¬part.isComment := fun h => hp (hplaced.comment h)
      exact htoken (ih part hpart hplaced.program hcomment hsettled token hm)

theorem IsItem.not_isComment_of_mem {form : Form} (h : IsItem form) :
    ∀ token ∈ form.tokens, token.isComment = false := by
  have hordinary := h.isOrdinary
  simp only [Form.isOrdinary, Bool.and_eq_true, Bool.not_eq_true'] at hordinary
  obtain ⟨⟨⟨⟨⟨⟨hprogram, hcomment⟩, -⟩, -⟩, -⟩, -⟩, -⟩ := hordinary
  exact not_isComment_of_settled (by simp [hprogram]) (by simp [hcomment]) h.settled

/-- An item is spelled by at least one token. -/
theorem IsItem.tokens_ne_nil {form : Form} (h : IsItem form) : form.tokens ≠ [] := by
  have hordinary := h.isOrdinary
  cases form with
  | program children | empty | leave | mapEntry key value => cases hordinary
  | _ => simp [tokens]

end Form

/-! ### Forms of statements -/

namespace Rule

/-- An expression has at least one form. -/
theorem step_ne_nil_of_isExpression (scope : Scope) (visit : Visit) {node : Node}
    (h : node.isExpression) (context : Context) :
    Yields (step scope visit node context) (· ≠ []) := by
  have hlast : ∀ {α : Type} (x : Except Fault α) (f : α → Except Fault (List Form)),
      (∀ a, Yields (f a) (· ≠ [])) → Yields (x >>= f) (· ≠ []) :=
    fun x f hf => yields_bind (q := fun _ => True) (fun _ _ => trivial) fun a _ => hf a
  cases node with
  | functionExpression id params body =>
    exact hlast _ _ fun name => hlast _ _ fun form => yields_pure (by simp)
  | binaryExpression operator left right | logicalExpression operator left right =>
    exact hlast _ _ fun left => hlast _ _ fun right => yields_pure (by simp)
  | conditionalExpression test consequent alternate =>
    exact hlast _ _ fun test => hlast _ _ fun first => hlast _ _ fun other => yields_pure (by simp)
  | unsupported kind text => exact yields_error _
  | identifier | thisExpression | nullLiteral | booleanLiteral | numericLiteral | stringLiteral
  | regExpLiteral => exact yields_ok (by simp)
  | templateLiteral | arrayExpression | objectExpression | arrowFunctionExpression
  | unaryExpression | assignmentExpression | callExpression | newExpression | memberExpression
  | jsxElement => exact hlast _ _ fun form => yields_pure (by simp)
  | _ => cases h

end Rule

namespace Node

/-- The tokens of the forms of a statement. -/
def codeTokens (scope : Scope) (node : Node) : List Token :=
  match node.forms scope with
  | .ok forms => tokensAll forms
  | .error _ => []

theorem codeTokens_of_forms {scope : Scope} {node : Node} {forms : List Form}
    (h : node.forms scope = .ok forms) : node.codeTokens scope = tokensAll forms := by
  rw [codeTokens, h]

variable {scope : Scope} {node : Node}

theorem forms_shaped (hg : node.Grammatical) (hs : node.isStatement) {forms : List Form}
    (h : node.forms scope = .ok forms) : Rule.Shaped node forms :=
  Rule.convert_shapes scope node.size node (Nat.lt_succ_self _) hg (standsAlone_of_isStatement hs)
    .value forms h

/-- No comment is a part of the forms of a statement. -/
theorem not_isComment_of_mem_codeTokens (scope : Scope) (hg : node.Grammatical)
    (hs : node.isStatement) :
    ∀ token ∈ node.codeTokens scope, token.isComment = false := by
  intro token hm
  unfold codeTokens at hm
  split at hm
  · rename_i forms hforms
    rw [tokensAll_eq_flatMap] at hm
    rcases (forms_shaped hg hs hforms).items with hitems | ⟨-, marker, hmarker, rfl⟩
    · obtain ⟨form, hform, hm⟩ := List.mem_flatMap.1 hm
      exact (hitems form hform).not_isComment_of_mem token hm
    · simp [tokens_eq_nil_of_isMarker hmarker] at hm
  · cases hm

/-- The form of an expression statement has at least one token, for the comments above it to stand
in front of. -/
theorem codeTokens_ne_nil {expression : Node} {comments : List String}
    (hg : (Node.expressionStatement expression comments).Grammatical) {forms : List Form}
    (h : (Node.expressionStatement expression comments).forms scope = .ok forms) :
    (Node.expressionStatement expression comments).codeTokens scope ≠ [] := by
  have hfits := (grammatical_iff.1 hg).1
  have hne : forms ≠ [] := by
    have hexpression : expression.forms scope = .ok forms := by
      rw [forms_eq] at h
      exact h
    rw [forms_eq] at hexpression
    exact Rule.step_ne_nil_of_isExpression scope _ hfits .value forms hexpression
  rw [codeTokens_of_forms h, tokensAll_eq_flatMap]
  rcases (forms_shaped hg rfl h).items with hitems | ⟨hmarker, -⟩
  · obtain ⟨form, others, rfl⟩ := List.exists_cons_of_ne_nil hne
    rw [List.flatMap_cons]
    exact fun hnil => (hitems form (by simp)).tokens_ne_nil (List.append_eq_nil_iff.1 hnil).1
  · cases hmarker

/-! ### Scripts without their comments -/

/-- A statement without the comments above it. -/
def dropComments : Node → Node
  | .expressionStatement expression _ => .expressionStatement expression []
  | node => node

/-- A script without its comments. -/
def uncommented : Node → Node
  | .program body => .program (body.map dropComments)
  | node => node

theorem commentLines_dropComments (node : Node) : node.dropComments.commentLines = [] := by
  cases node <;> rfl

theorem children_dropComments (node : Node) : node.dropComments.children = node.children := by
  cases node <;> rfl

theorem forms_dropComments (scope : Scope) (node : Node) :
    node.dropComments.forms scope = node.forms scope := by
  cases node with
  | expressionStatement expression comments =>
    rw [dropComments, forms_eq, forms_eq]
    rfl
  | _ => rfl

/-- What holds at every node of a script and does not hang on comments holds at every node of the
script without its comments. -/
theorem forall_subtrees_uncommented {p : Node → Prop} {body : List Node}
    (hroot : p (.program (body.map dropComments))) (hdrop : ∀ s ∈ body, p s → p s.dropComments)
    (h : ∀ m ∈ (Node.program body).subtrees, p m) :
    ∀ m ∈ (Node.program body).uncommented.subtrees, p m := by
  have hbody := (forall_subtrees_iff.1 h).2
  refine forall_subtrees_iff.2 ⟨hroot, ?_⟩
  rw [show (Node.program body).uncommented.children = body.map dropComments from rfl,
    List.forall_mem_map]
  intro s hs
  obtain ⟨hstatement, hbelow⟩ := forall_subtrees_iff.1 (hbody s hs)
  refine forall_subtrees_iff.2 ⟨hdrop s hs hstatement, ?_⟩
  rw [children_dropComments]
  exact hbelow

theorem isScript_uncommented (h : node.IsScript) : node.uncommented.IsScript := by
  obtain ⟨hp, hg⟩ := h
  cases node with
  | program body =>
    refine ⟨rfl, forall_subtrees_uncommented ?_ ?_ hg⟩
    · have hfits := (grammatical_iff.1 hg).1
      simp only [fits, List.all_eq_true] at hfits
      simp only [fits, List.all_map, List.all_eq_true, Function.comp_apply]
      intro s hs
      have hstatement := hfits s hs
      cases s <;> exact hstatement
    · intro s _ hfits
      cases s <;> exact hfits
  | _ => cases hp

/-! ### Programs -/

/-- A statement has the forms that it has in a program, under its comments. -/
def commentedForms (scope : Scope) (node : Node) : Except Fault (List Form) := do
  return node.commentLines.map .comment ++ (← node.forms scope)

/-- The tokens of a statement under those of its comments. -/
def commentedTokens (scope : Scope) (node : Node) : List Token :=
  node.commentLines.map Token.ofCommentLine ++ node.codeTokens scope

/-- A program is made of the forms of its statements, each under its comments. -/
theorem toProgram_program (scope : Scope) (body : List Node) :
    (Node.program body).toProgram scope = (do
      let items ← body.mapM (commentedForms scope)
      return .program items.flatten) := by
  rw [toProgram, Rule.program]
  congr 1
  refine mapM_congr fun s hs => ?_
  have hsize : s.size ≤ (Node.program body).size := Nat.le_of_lt (size_of_child hs)
  rw [commentedForms, forms_eq_convert scope hsize]
  cases s <;> rfl

theorem tokensAll_commentedForms (scope : Scope) (node : Node) :
    Yields (node.commentedForms scope) fun forms =>
      tokensAll forms = node.commentedTokens scope := by
  intro forms hforms
  obtain ⟨own, hown, hforms⟩ := bind_eq_ok.1 hforms
  cases hforms
  rw [commentedTokens, codeTokens_of_forms hown, tokensAll_eq_flatMap, tokensAll_eq_flatMap,
    List.flatMap_append, List.flatMap_map]
  congr 1
  exact (List.map_eq_flatMap ..).symm

/-- The tokens of a program are those of its statements, each under its comments. -/
theorem tokens_toProgram (scope : Scope) (body : List Node) :
    Yields ((Node.program body).toProgram scope) fun form =>
      form.tokens = body.flatMap (commentedTokens scope) := by
  rw [toProgram_program]
  refine yields_bind (yields_mapM_flatMap fun s _ => tokensAll_commentedForms scope s) ?_
  intro items hitems
  refine yields_pure ?_
  rw [tokens, tokensAll_flatten, hitems]

theorem commentedTokens_dropComments (scope : Scope) (node : Node) :
    node.dropComments.commentedTokens scope = node.codeTokens scope := by
  rw [commentedTokens, commentLines_dropComments, codeTokens, codeTokens, forms_dropComments]
  rfl

/-- With and without its comments a script has a program, or has none for the same reason. -/
theorem agree_toProgram_uncommented (scope : Scope) (body : List Node) :
    Agree (fun _ _ => True) ((Node.program body).toProgram scope)
      ((Node.program body).uncommented.toProgram scope) := by
  have hstatement : ∀ s ∈ body, Agree (fun _ _ => True) (s.commentedForms scope)
      (s.dropComments.commentedForms scope) := by
    intro s _
    rw [commentedForms, commentedForms, forms_dropComments]
    cases s.forms scope with
    | ok forms => exact .ok trivial
    | error fault => exact .error fault
  rw [uncommented, toProgram_program, toProgram_program, List.mapM_map]
  exact agree_bind (agree_mapM hstatement) fun _ _ _ => agree_pure trivial

/-! ### Texts -/

/-- The text of a tree: its form, printed and laid out. -/
def toText (scope : Scope) (layout : Layout) (node : Node) : Except TransformError String := do
  let form ← (node.toProgram scope).mapError .fault
  form.layOut layout

/-- A source is transformed to the text of its tree. -/
theorem transform_eq_toText (scope : Scope) (layout : Layout) (source : String) :
    transform scope layout source = (do (← parse source).toText scope layout) := by
  unfold transform toForm
  cases parse source <;> rfl

/-- The names, operators, numbers and patterns of every node can be read back. -/
def HasLegibleWords (node : Node) : Prop :=
  ∀ m ∈ node.subtrees, (∀ word ∈ m.words, Token.IsWord word.toList) ∧
    ∀ pattern ∈ m.pattern?, ¬endsEscaping pattern.toList

instance (node : Node) : Decidable node.HasLegibleWords :=
  inferInstanceAs (Decidable (∀ m ∈ node.subtrees, _ ∧ _))

/-- The comments of a script are those of a source: above each of its statements there are the lines
of any number of comments, and further down there are none. -/
structure HasSourceComments (node : Node) : Prop where
  above : ∀ statement ∈ node.children, ∃ texts : List (List Char),
    (∀ text ∈ texts, Source.IsCommentText text) ∧
      statement.commentLines = texts.flatMap Source.commentLines
  below : ∀ statement ∈ node.children, ∀ m ∈ statement.descendants, m.commentLines = []

theorem HasSourceComments.not_mem {statement : Node} (h : node.HasSourceComments)
    (hs : statement ∈ node.children) : ∀ line ∈ statement.commentLines, '\n' ∉ line.toList := by
  obtain ⟨texts, htexts, hlines⟩ := h.above statement hs
  intro line hl
  rw [hlines] at hl
  obtain ⟨text, ht, hl⟩ := List.mem_flatMap.1 hl
  exact (Source.isTrimmedLine_of_mem_commentLines (htexts text ht) hl).1

/-- Comments can be read back, whatever they hold. -/
theorem HasSourceComments.legible (h : node.HasSourceComments) (hp : node.isProgram)
    (hw : node.HasLegibleWords) : node.Legible := by
  have hlines : ∀ m ∈ node.subtrees, ∀ line ∈ m.commentLines, '\n' ∉ line.toList := by
    refine forall_subtrees_iff.2 ⟨?_, fun statement hs m hm => ?_⟩
    · cases node <;> simp_all [Node.isProgram, commentLines]
    · rw [subtrees_eq] at hm
      rcases List.mem_cons.1 hm with rfl | hm
      · exact h.not_mem hs
      · simp [h.below statement hs m hm]
  exact fun m hm => ⟨(hw m hm).1, (hw m hm).2, hlines m hm⟩

/-- Without the comments above its statements a script has none at all. -/
theorem HasSourceComments.commentLines_uncommented (h : node.HasSourceComments)
    (hp : node.isProgram) : ∀ m ∈ node.uncommented.subtrees, m.commentLines = [] := by
  cases node with
  | program body =>
    refine forall_subtrees_iff.2 ⟨rfl, List.forall_mem_map.2 fun s hs => ?_⟩
    refine forall_subtrees_iff.2 ⟨commentLines_dropComments s, ?_⟩
    rw [children_dropComments]
    exact fun child hc m hm => h.below s hs m (mem_descendants_of_child hc hm)
  | _ => cases hp

theorem legible_uncommented (hl : node.Legible) (hp : node.isProgram) :
    node.uncommented.Legible := by
  cases node with
  | program body =>
    refine forall_subtrees_uncommented (by simp [HasLegibleTexts, words, pattern?, commentLines])
      (fun s _ htexts => ?_) hl
    cases s with
    | expressionStatement expression comments =>
      simp [dropComments, HasLegibleTexts, words, pattern?, commentLines]
    | _ => exact htexts
  | _ => cases hp

/-- The form of a legible script has a text, with the tokens of the form. -/
theorem toText_of_toProgram (h : node.IsScript) (hl : node.Legible) {scope : Scope} {form : Form}
    (hf : node.toProgram scope = .ok form) :
    ∃ text placed, node.toText scope .compact = .ok text ∧
      Token.scan text.toList = .ok placed ∧ placed.map Prod.snd = form.tokens := by
  obtain ⟨forms, rfl, hforms⟩ := toProgram_forms_printable h hl hf
  obtain ⟨raw, text, placed, hprint, happly, hscan, hplaced⟩ := layout_of_printable hforms
  refine ⟨text, placed, ?_, hscan, hplaced⟩
  simp [toText, hf, Form.layOut, hprint, happly, Except.mapError]

/-- What the comments of statements add to tokens. -/
structure AddsComments (scope : Scope) (body : List Node) (tokens bare : List Token) : Prop where
  /-- Without the comments the same tokens are left. -/
  code : (tokens.filter fun token => !token.isComment) = bare
  /-- There is one token for each comment line, in order. -/
  comments : tokens.filter Token.isComment = (body.flatMap commentLines).map Token.ofCommentLine
  /-- The comments above a statement stand directly in front of the tokens of its forms. -/
  groups : tokens = body.flatMap (commentedTokens scope)
  /-- Every statement has forms, and where there are comments above it, the forms have tokens. -/
  statements : ∀ s ∈ body, (∃ forms, s.forms scope = .ok forms ∧
    s.codeTokens scope = tokensAll forms) ∧ (s.commentLines ≠ [] → s.codeTokens scope ≠ [])

theorem filter_commentedTokens (scope : Scope) (hg : node.Grammatical) (hs : node.isStatement) :
    (node.commentedTokens scope).filter Token.isComment =
        node.commentLines.map Token.ofCommentLine ∧
      ((node.commentedTokens scope).filter fun token => !token.isComment) =
        node.codeTokens scope := by
  have hcode := not_isComment_of_mem_codeTokens scope hg hs
  have hcomments : ∀ token ∈ node.commentLines.map Token.ofCommentLine, token.isComment :=
    List.forall_mem_map.2 fun _ _ => rfl
  rw [commentedTokens, List.filter_append, List.filter_append]
  constructor
  · rw [List.filter_eq_self.2 hcomments, List.filter_eq_nil_iff.2 (by simpa using hcode),
      List.append_nil]
  · rw [List.filter_eq_nil_iff.2 (by simpa using hcomments), List.nil_append]
    exact List.filter_eq_self.2 (by simpa using hcode)

theorem addsComments {body : List Node} (hg : (Node.program body).Grammatical)
    (hf : ∀ s ∈ body, Succeeds (s.forms scope)) :
    AddsComments scope body (body.flatMap (commentedTokens scope))
      (body.flatMap (codeTokens scope)) := by
  have hstatement : ∀ s ∈ body, s.isStatement := by
    have hfits := (grammatical_iff.1 hg).1
    simpa [fits] using hfits
  have hfilter := fun s hs => filter_commentedTokens scope (hg.child hs) (hstatement s hs)
  constructor
  · rw [List.filter_flatMap]
    exact List.flatMap_congr fun s hs => (hfilter s hs).2
  · rw [List.filter_flatMap, List.map_flatMap]
    exact List.flatMap_congr fun s hs => (hfilter s hs).1
  · rfl
  · intro s hs
    obtain ⟨forms, hforms⟩ := hf s hs
    refine ⟨⟨forms, hforms, codeTokens_of_forms hforms⟩, fun hne => ?_⟩
    cases s with
    | expressionStatement expression comments => exact codeTokens_ne_nil (hg.child hs) hforms
    | _ => exact absurd rfl hne

theorem succeeds_forms_of_toProgram {body : List Node}
    (h : Succeeds ((Node.program body).toProgram scope)) :
    ∀ s ∈ body, Succeeds (s.forms scope) := by
  rw [toProgram_program, succeeds_bind] at h
  obtain ⟨items, hitems, -⟩ := h
  intro s hs
  have hcommented := succeeds_mapM.1 ⟨items, hitems⟩ s hs
  obtain ⟨forms, hforms, -⟩ := succeeds_bind.1 hcommented
  exact ⟨forms, hforms⟩

/-- Comments never touch code. With its comments a script has a text exactly if it has one without
them, and fails for the same reason otherwise; the two texts have the same tokens but for the
comments, of which each group stands in front of the statement that it belongs to. -/
theorem toText_comments (scope : Scope) (node : Node) (h : node.IsScript)
    (hw : node.HasLegibleWords) (hc : node.HasSourceComments) :
    (∀ m ∈ node.uncommented.subtrees, m.commentLines = []) ∧
      Agree (fun text bare => ∃ placed placedBare, Token.scan text.toList = .ok placed ∧
          Token.scan bare.toList = .ok placedBare ∧
          AddsComments scope node.children (placed.map Prod.snd) (placedBare.map Prod.snd))
        (node.toText scope .compact) (node.uncommented.toText scope .compact) := by
  have hlegible := hc.legible h.1 hw
  have hscript := isScript_uncommented h
  have hbare := legible_uncommented hlegible h.1
  cases node with
  | program body =>
    refine ⟨hc.commentLines_uncommented h.1, ?_⟩
    have hagree := agree_toProgram_uncommented scope body
    generalize hform : (Node.program body).toProgram scope = x at hagree
    generalize hplain : (Node.program body).uncommented.toProgram scope = y at hagree
    cases hagree with
    | error fault =>
      rw [toText, toText, hform, hplain]
      exact .error _
    | @ok form plain =>
      obtain ⟨text, placed, htext, hscan, hplaced⟩ := toText_of_toProgram h hlegible hform
      obtain ⟨bare, placedBare, hbareText, hbareScan, hplacedBare⟩ :=
        toText_of_toProgram hscript hbare hplain
      have htokens := tokens_toProgram scope body form hform
      have hplainTokens : plain.tokens = body.flatMap (codeTokens scope) := by
        rw [tokens_toProgram scope (body.map dropComments) plain hplain, List.flatMap_map]
        exact List.flatMap_congr fun s _ => commentedTokens_dropComments scope s
      rw [htext, hbareText]
      refine .ok ⟨placed, placedBare, hscan, hbareScan, ?_⟩
      rw [hplaced, hplacedBare, htokens, hplainTokens]
      exact addsComments h.2 (succeeds_forms_of_toProgram ⟨form, hform⟩)
  | _ => cases h.1

/-- The tree of `f(";")` and `this` with an empty statement between them. Above the call stand the
comments of `noteTexts`. -/
def notedScript : Node :=
  .program [.expressionStatement (.callExpression (.identifier "f") [.stringLiteral ";"])
    ["say \"(", "; to", "x"], .emptyStatement, .expressionStatement .thisExpression []]

/-- A block comment of two lines that looks like code, and a comment to the end of a line. -/
def noteTexts : List (List Char) := ["/* say \"(\n * ; to */".toList, "// x ".toList]

theorem hasSourceComments_notedScript : notedScript.HasSourceComments := by
  have hline : ∀ c ∈ [' ', 'x', ' '], ¬Source.isLineEnd c := by
    simp [Source.isLineEnd, Source.isLineBreak]
  have htexts : ∀ text ∈ noteTexts, Source.IsCommentText text := by
    rw [noteTexts, List.forall_mem_cons, List.forall_mem_singleton]
    exact ⟨.block " say \"(\n * ; to ".toList, .line hline⟩
  constructor
  · intro statement hs
    simp only [notedScript, children, List.mem_cons, List.not_mem_nil, or_false] at hs
    rcases hs with rfl | rfl | rfl
    · exact ⟨noteTexts, htexts, by decide⟩
    · exact ⟨[], by simp, rfl⟩
    · exact ⟨[], by simp, rfl⟩
  · decide

theorem toText_notedScript :
    (notedScript.IsScript ∧ notedScript.HasLegibleWords ∧ notedScript.HasSourceComments ∧
      (notedScript.toText (fun _ => false) .compact).toOption =
        some ";; say \"(\n;; ; to\n;; x\n(f \";\")\n\n(this-as this this)\n") ∧
      (∀ m ∈ notedScript.uncommented.subtrees, m.commentLines = []) ∧
      Agree (fun text bare => ∃ placed placedBare, Token.scan text.toList = .ok placed ∧
          Token.scan bare.toList = .ok placedBare ∧
          AddsComments (fun _ => false) notedScript.children (placed.map Prod.snd)
            (placedBare.map Prod.snd))
        (notedScript.toText (fun _ => false) .compact)
        (notedScript.uncommented.toText (fun _ => false) .compact) := by
  have hscript : notedScript.IsScript := ⟨rfl, by unfold Grammatical; decide⟩
  have hwords : notedScript.HasLegibleWords := by decide
  have hcomments := hasSourceComments_notedScript
  exact ⟨⟨hscript, hwords, hcomments, by decide +kernel⟩,
    toText_comments (fun _ => false) notedScript hscript hwords hcomments⟩

end Node

end ScriptForms
