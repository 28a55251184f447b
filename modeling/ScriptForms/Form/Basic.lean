/-!
# Lisp forms

A `Form` is a piece of ClojureScript as a tree. Atoms are symbols, keywords, numbers (as written),
strings, truth values and regular expressions; compound forms are lists, vectors, maps and forms
under a reader tag. A `program` is the root of a file, a `comment` is a line above a form, and the
markers `empty` and `leave` print as nothing.

* `Form.call`: a list with a symbol at its head.
* `Form.sequence`: several forms as one, by `do` unless there is exactly one.
* `Form.definedName`: the name that a `def` or `defn` list binds.
-/

namespace ScriptForms

/-- A ClojureScript form. -/
inductive Form where
  /-- A bare name or operator. -/
  | symbol (name : String)
  /-- A keyword, without its colon. -/
  | keyword (value : String)
  /-- A number, as it is written. -/
  | number (raw : String)
  /-- A string, as its value. -/
  | string (value : String)
  | boolean (value : Bool)
  /-- A regular expression with its flags. -/
  | regex (pattern flags : String)
  | list (children : List Form)
  | vector (children : List Form)
  /-- A map; its children are map entries. -/
  | hashMap (children : List Form)
  | mapEntry (key value : Form)
  /-- A form under a reader tag. -/
  | tagged (tag : String) (form : Form)
  /-- The root of a file. -/
  | program (children : List Form)
  | comment (text : String)
  /-- The marker of a statement without effect. -/
  | empty
  /-- The marker of a statement that leaves the enclosing `switch`. -/
  | leave
  deriving Inhabited

namespace Form

/-! ### Names with a meaning in the output -/

/-- A name resolved in the host environment. -/
def hostName (name : String) : String := "js/" ++ name

/-- The reader of a property, as the head of a list. -/
def dotGetterName (name : String) : String := ".-" ++ name

/-- The reader of a property, as a step of a `..` list. -/
def getterName (name : String) : String := "-" ++ name

/-- The name of a method, as the head of a list. -/
def methodName (name : String) : String := "." ++ name

/-! ### Compound forms -/

/-- The list `(head args ...)`. -/
def call (head : String) (args : List Form) : Form := .list (.symbol head :: args)

/-- The symbol `nil`. -/
def nil : Form := .symbol "nil"

/-- The host array `#js [items ...]`. -/
def hostArray (items : List Form) : Form := .tagged "#js" (.vector items)

/-- The host object of the given entries. -/
def hostObject (entries : List Form) : Form := .tagged "#js" (.hashMap entries)

/-- One form for a sequence: a single form is itself, anything else is wrapped in `do`. -/
def sequence : List Form → Form
  | [form] => form
  | forms => call "do" forms

/-- The list `(this-as name form)`, which binds the receiver to a name. -/
def thisAs (name : String) (form : Form) : Form := call "this-as" [.symbol name, form]

@[simp] theorem sequence_singleton (form : Form) : sequence [form] = form := rfl

/-! ### Views -/

/-- The name of a symbol. -/
def symbol? : Form → Option String
  | .symbol name => some name
  | _ => none

/-- The children of a list, vector, map or program. -/
def children? : Form → Option (List Form)
  | .list children | .vector children | .hashMap children | .program children => some children
  | _ => none

/-- The symbol at the head of a list. -/
def head? : Form → Option String
  | .list (form :: _) => form.symbol?
  | _ => none

/-- Whether a form prints as nothing. -/
def isMarker : Form → Bool
  | .empty | .leave => true
  | _ => false

/-- The name bound by a `def` or `defn` list. -/
def definedName? : Form → Option String
  | .list (.symbol head :: name :: _) => if head = "def" ∨ head = "defn" then name.symbol? else none
  | _ => none

end Form

end ScriptForms
