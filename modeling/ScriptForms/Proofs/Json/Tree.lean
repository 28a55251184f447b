import ScriptForms.Command.Run
import ScriptForms.Proofs.Json.Text
import ScriptForms.Proofs.Json.Value

/-!
# Trees and forms in documents

The document of a tree loses nothing: from its value the tree can be built again, part by part, by
the names of the parts. The kinds of nodes are told apart by the field `type` alone; comments that
are left out are read as no comments, and `null` is read as an absent part.

* `Field.ofTree`, `Field.ofTree?`: what a subtree is read as.
* `Node.read_toJson`, `Form.read_toJson`: the document of a tree is read as the tree.
* `Node.byName_ofFields`, `Form.byName_ofFields`: trees are built by the names of their parts.
* `Json.toJson_lossless`: the value of a document and its text determine the tree.
-/

namespace ScriptForms

/-! ### Parts -/

/-- A subtree that has been read. -/
def Field.ofTree {α : Type} (value : α) : Field α := .tree (some value)

/-- A subtree that has been read, if there is one. -/
def Field.ofTree? {α : Type} : Option α → Field α
  | none => .absent
  | some value => .ofTree value

namespace Fields

variable {α β : Type} {fields : Fields α} {name : String}

theorem child_eq {value : α} (h : fields.get name = .ofTree value) :
    fields.child name = some value := by
  rw [child, h]
  rfl

theorem child?_eq {value : Option α} (h : fields.get name = .ofTree? value) :
    fields.child? name = some value := by
  rw [child?, h]
  cases value <;> rfl

theorem mapM_map_eq_some {γ : Type} {item : β → Option γ} {make : γ → β}
    (h : ∀ value, item (make value) = some value) (values : List γ) :
    (values.map make).mapM item = some values := by
  induction values with
  | nil => rfl
  | cons value values ih => rw [List.map_cons, List.mapM_cons, h, ih]; rfl

theorem children_eq {values : List α} (h : fields.get name = .many (values.map .ofTree)) :
    fields.children name = some values := by
  have hread : ∀ value : α, (Field.ofTree value).tree? = some value := fun _ => rfl
  rw [children, h, Field.all?]
  exact mapM_map_eq_some hread values

theorem texts_eq {values : List String} (h : fields.get name = .many (values.map .text)) :
    fields.texts name = some values := by
  have hread : ∀ value, (Field.text value : Field α).text? = some value := fun _ => rfl
  rw [texts, h, Field.all?]
  exact mapM_map_eq_some hread values

/-- The fields of an object are only looked at by name. -/
theorem getters_congr {others : Fields α} (h : ∀ name, fields.get name = others.get name) :
    fields.text = others.text ∧ fields.flag = others.flag ∧ fields.child = others.child ∧
      fields.child? = others.child? ∧ fields.children = others.children ∧
      fields.texts = others.texts := by
  refine ⟨?_, ?_, ?_, ?_, ?_, ?_⟩
  all_goals
    funext name
    simp only [text, flag, child, child?, children, texts, h name]

/-- A tree is built from one part and then from the others. -/
theorem part {x : Option α} {f : α → Option β} {a : α} {b : β} (hx : x = some a)
    (hf : f a = some b) : (x >>= f) = some b := by
  rw [hx]
  exact hf

theorem tree_eq {x : Option α} {a : α} (h : x = some a) : Field.tree x = .ofTree a :=
  congrArg Field.tree h

end Fields

open Fields

/-! ### Forms -/

namespace Form

mutual

/-- The document of a form is read as the form. -/
theorem read_toJson : ∀ form : Form, form.toJson.read ofFields = .ofTree form
  | .symbol _ | .keyword _ | .number _ | .string _ | .boolean _ | .regex _ _ | .comment _ | .empty
  | .leave => rfl
  | .list children | .vector children | .hashMap children | .program children =>
    tree_eq (part rfl (part (children_eq (read_toJsonAll children)) rfl))
  | .mapEntry key value =>
    tree_eq (part rfl (part (child_eq (read_toJson key)) (part (child_eq (read_toJson value)) rfl)))
  | .tagged _ form => tree_eq (part rfl (part rfl (part (child_eq (read_toJson form)) rfl)))

theorem read_toJsonAll : ∀ forms : List Form,
    (Json.arr (toJsonAll forms)).read ofFields = .many (forms.map .ofTree)
  | [] => rfl
  | form :: forms => by
    have hforms := Field.many.inj (read_toJsonAll forms)
    rw [Json.read, toJsonAll, Json.readItems, read_toJson form, hforms]
    rfl

end

theorem byName_ofFields : ByName ofFields := by
  intro fields others h
  obtain ⟨htext, hflag, hchild, -, hchildren, -⟩ := getters_congr h
  unfold ofFields
  rw [htext, hflag, hchild, hchildren]

end Form

/-! ### Nodes -/

theorem BindingKind.ofKeyword?_keyword (kind : BindingKind) :
    ofKeyword? kind.keyword = some kind := by
  cases kind <;> rfl

theorem MethodKind.ofLabel?_label (kind : MethodKind) : ofLabel? kind.label = some kind := by
  cases kind <;> rfl

namespace Node

theorem read_textArray (texts : List String) :
    (textArray texts).read ofFields = .many (texts.map .text) := by
  rw [textArray, Json.read]
  induction texts with
  | nil => rfl
  | cons text texts ih =>
    rw [List.map_cons, Json.readItems, Field.many.inj ih]
    rfl

mutual

/-- The document of a node is read as the node. -/
theorem read_toJson : ∀ node : Node, node.toJson.read ofFields = .ofTree node
  | .emptyStatement | .debuggerStatement | .breakStatement | .thisExpression | .nullLiteral
  | .importSpecifier _ _ | .importDefaultSpecifier _ | .importNamespaceSpecifier _
  | .exportSpecifier _ _ | .identifier _ | .booleanLiteral _ | .numericLiteral _
  | .stringLiteral _ | .regExpLiteral _ _ | .jsxIdentifier _ | .jsxText _ | .unsupported _ _ => rfl
  | .program nodes | .blockStatement nodes | .arrayExpression nodes | .objectExpression nodes =>
    tree_eq (part rfl (part (children_eq (read_toJsonAll nodes)) rfl))
  | .throwStatement node | .spreadElement node | .exportDefaultDeclaration node =>
    tree_eq (part rfl (part (child_eq (read_toJson node)) rfl))
  | .returnStatement node | .jsxExpressionContainer node =>
    tree_eq (part rfl (part (child?_eq (read_toJsonOr node)) rfl))
  | .variableDeclarator name value | .jsxAttribute name value =>
    tree_eq (part rfl (part (child_eq (read_toJson name))
      (part (child?_eq (read_toJsonOr value)) rfl)))
  | .catchClause param body =>
    tree_eq (part rfl (part (child?_eq (read_toJsonOr param))
      (part (child_eq (read_toJson body)) rfl)))
  | .switchCase node nodes | .exportNamedDeclaration node nodes =>
    tree_eq (part rfl (part (child?_eq (read_toJsonOr node))
      (part (children_eq (read_toJsonAll nodes)) rfl)))
  | .switchStatement node nodes | .callExpression node nodes | .newExpression node nodes
  | .jsxElement node nodes | .jsxOpeningElement node nodes _ =>
    tree_eq (part rfl (part (child_eq (read_toJson node))
      (part (children_eq (read_toJsonAll nodes)) rfl)))
  | .arrowFunctionExpression params body =>
    tree_eq (part rfl (part (children_eq (read_toJsonAll params))
      (part (child_eq (read_toJson body)) rfl)))
  | .importDeclaration specifiers _ =>
    tree_eq (part rfl (part (children_eq (read_toJsonAll specifiers)) rfl))
  | .templateLiteral quasis expressions =>
    tree_eq (part rfl (part (texts_eq (read_textArray quasis))
      (part (children_eq (read_toJsonAll expressions)) rfl)))
  | .expressionStatement expression [] =>
    tree_eq (part rfl (part (child_eq (read_toJson expression)) rfl))
  | .expressionStatement expression (comment :: comments) =>
    tree_eq (part rfl (part (child_eq (read_toJson expression))
      (part (texts_eq (read_textArray (comment :: comments))) rfl)))
  | .ifStatement test consequent alternate =>
    tree_eq (part rfl (part (child_eq (read_toJson test))
      (part (child_eq (read_toJson consequent)) (part (child?_eq (read_toJsonOr alternate)) rfl))))
  | .tryStatement block handler finalizer =>
    tree_eq (part rfl (part (child_eq (read_toJson block))
      (part (child?_eq (read_toJsonOr handler)) (part (child?_eq (read_toJsonOr finalizer)) rfl))))
  | .functionDeclaration id params body =>
    tree_eq (part rfl (part (child_eq (read_toJson id))
      (part (children_eq (read_toJsonAll params)) (part (child_eq (read_toJson body)) rfl))))
  | .functionExpression id params body =>
    tree_eq (part rfl (part (child?_eq (read_toJsonOr id))
      (part (children_eq (read_toJsonAll params)) (part (child_eq (read_toJson body)) rfl))))
  | .variableDeclaration kind declarations =>
    tree_eq (part rfl (part rfl (part (BindingKind.ofKeyword?_keyword kind)
      (part (children_eq (read_toJsonAll declarations)) rfl))))
  | .objectMethod kind key params body _ =>
    tree_eq (part rfl (part rfl (part (MethodKind.ofLabel?_label kind)
      (part (child_eq (read_toJson key)) (part (children_eq (read_toJsonAll params))
        (part (child_eq (read_toJson body)) rfl))))))
  | .objectProperty first second _ _ | .memberExpression first second _ =>
    tree_eq (part rfl (part (child_eq (read_toJson first))
      (part (child_eq (read_toJson second)) rfl)))
  | .unaryExpression _ argument =>
    tree_eq (part rfl (part rfl (part (child_eq (read_toJson argument)) rfl)))
  | .binaryExpression _ left right | .logicalExpression _ left right
  | .assignmentExpression _ left right =>
    tree_eq (part rfl (part rfl (part (child_eq (read_toJson left))
      (part (child_eq (read_toJson right)) rfl))))
  | .conditionalExpression test consequent alternate =>
    tree_eq (part rfl (part (child_eq (read_toJson test))
      (part (child_eq (read_toJson consequent)) (part (child_eq (read_toJson alternate)) rfl))))

theorem read_toJsonAll : ∀ nodes : List Node,
    (Json.arr (toJsonAll nodes)).read ofFields = .many (nodes.map .ofTree)
  | [] => rfl
  | node :: nodes => by
    have hnodes := Field.many.inj (read_toJsonAll nodes)
    rw [Json.read, toJsonAll, Json.readItems, read_toJson node, hnodes]
    rfl

theorem read_toJsonOr : ∀ node : Option Node, (toJsonOr node).read ofFields = .ofTree? node
  | none => rfl
  | some node => read_toJson node

end

theorem byName_ofFields : ByName ofFields := by
  intro fields others h
  obtain ⟨htext, hflag, hchild, hchild?, hchildren, htexts⟩ := getters_congr h
  unfold ofFields
  rw [htext, hflag, hchild, hchild?, hchildren, htexts]

end Node

/-! ### Documents and their texts -/

namespace Json

theorem documentText_injective : Function.Injective Job.documentText := fun _ _ h =>
  pretty_injective ((String.append_left_inj "\n").1 h)

theorem node_of_value {node : Node} {document : Json} (h : document.value = node.toJson.value) :
    Node.ofJson? document = some node := by
  rw [Node.ofJson?, read_congr Node.byName_ofFields h, Node.read_toJson]
  rfl

theorem form_of_value {form : Form} {document : Json} (h : document.value = form.toJson.value) :
    Form.ofJson? document = some form := by
  rw [Form.ofJson?, read_congr Form.byName_ofFields h, Form.read_toJson]
  rfl

/-- From a document with the value of the document of a tree the tree is read. So trees with
documents of the same value are the same, and so are trees with documents of the same text. The
same holds of forms. -/
theorem toJson_lossless :
    (∀ (node : Node) (document : Json), document.value = node.toJson.value →
      Node.ofJson? document = some node) ∧
    (∀ (form : Form) (document : Json), document.value = form.toJson.value →
      Form.ofJson? document = some form) ∧
    (Function.Injective fun node : Node => node.toJson.value) ∧
    (Function.Injective fun form : Form => form.toJson.value) ∧
    (Function.Injective fun node : Node => Job.documentText node.toJson) ∧
    Function.Injective fun form : Form => Job.documentText form.toJson := by
  have hnode : Function.Injective fun node : Node => node.toJson.value := fun node other h =>
    Option.some.inj ((node_of_value rfl).symm.trans (node_of_value h))
  have hform : Function.Injective fun form : Form => form.toJson.value := fun form other h =>
    Option.some.inj ((form_of_value rfl).symm.trans (form_of_value h))
  refine ⟨fun _ _ => node_of_value, fun _ _ => form_of_value, hnode, hform, ?_, ?_⟩
  · exact fun node other h => hnode (congrArg value (documentText_injective h))
  · exact fun form other h => hform (congrArg value (documentText_injective h))

/-- The document of `this[b]` with the fields of the access and of the name in another order. -/
def shuffledDocument : Json :=
  .obj [("property", .obj [("name", .str "b"), ("type", .str "Identifier")]),
    ("computed", .bool true), ("type", .str "MemberExpression"),
    ("object", .obj [("type", .str "ThisExpression")])]

/-- The order of fields has no part in the value of a document: in another order they are read as
the same tree. -/
theorem toJson_lossless_shuffled :
    shuffledDocument.value =
      (Node.memberExpression .thisExpression (.identifier "b") true).toJson.value ∧
    Node.ofJson? shuffledDocument =
      some (.memberExpression .thisExpression (.identifier "b") true) := by
  have hname : (Json.obj [("name", .str "b"), ("type", .str "Identifier")]).value =
      (Node.identifier "b").toJson.value := by
    refine congrArg Value.obj (funext fun name => ?_)
    grind [valueOf]
  have hthis : (Json.obj [("type", .str "ThisExpression")]).value =
      Node.thisExpression.toJson.value := rfl
  have hvalue : shuffledDocument.value =
      (Node.memberExpression .thisExpression (.identifier "b") true).toJson.value := by
    refine congrArg Value.obj (funext fun name => ?_)
    grind [valueOf]
  exact ⟨hvalue, toJson_lossless.1 _ _ hvalue⟩

end Json

end ScriptForms
