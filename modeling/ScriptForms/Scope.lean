/-!
# Names of the host environment

Which names denote something of the host environment is a matter of policy: a `Scope` answers it
for every name. The usual scope is a `NameSet`, an explicit set of names; `NameSet.host` is a fixed
list of what browsers and servers provide.
-/

namespace ScriptForms

/-- Whether a name is bound in the host environment. -/
abbrev Scope := String → Bool

/-- The names that browsers and servers provide. -/
def hostNames : List String := [
  "Array", "ArrayBuffer", "BigInt", "Boolean", "DataView", "Date", "Error", "EvalError",
  "Float32Array", "Float64Array", "Function", "Infinity", "Int16Array", "Int32Array", "Int8Array",
  "Intl", "JSON", "Map", "Math", "NaN", "Number", "Object", "Promise", "Proxy", "RangeError",
  "ReferenceError", "Reflect", "RegExp", "Set", "String", "Symbol", "SyntaxError", "TypeError",
  "URIError", "Uint16Array", "Uint32Array", "Uint8Array", "Uint8ClampedArray", "WeakMap", "WeakSet",
  "decodeURI", "decodeURIComponent", "encodeURI", "encodeURIComponent", "eval", "globalThis",
  "isFinite", "isNaN", "parseFloat", "parseInt",
  "clearInterval", "clearTimeout", "queueMicrotask", "setInterval", "setTimeout",
  "alert", "cancelAnimationFrame", "confirm", "console", "document", "fetch", "history",
  "localStorage", "location", "navigator", "requestAnimationFrame", "sessionStorage", "window",
  "Blob", "CustomEvent", "Event", "FormData", "Headers", "Request", "Response", "URL",
  "URLSearchParams", "WebSocket", "XMLHttpRequest",
  "Buffer", "__dirname", "__filename", "clearImmediate", "exports", "global", "module", "process",
  "require", "setImmediate"]

/-- A finite set of names: a list without repetitions. -/
structure NameSet where
  names : List String
  nodup : names.Nodup

namespace NameSet

/-- Whether a name is in the set. -/
def contains (set : NameSet) (name : String) : Bool := set.names.contains name

/-- The number of names of a set. -/
def size (set : NameSet) : Nat := set.names.length

/-- Whether a set has no names. -/
def isEmpty (set : NameSet) : Bool := set.names.isEmpty

/-- The set without names. -/
def empty : NameSet := ⟨[], List.nodup_nil⟩

/-- The set with one name more. -/
def insert (set : NameSet) (name : String) : NameSet :=
  if h : name ∈ set.names then set else ⟨name :: set.names, List.nodup_cons.2 ⟨h, set.nodup⟩⟩

/-- The set with one name less. -/
def erase (set : NameSet) (name : String) : NameSet :=
  ⟨set.names.filter (· ≠ name), set.nodup.filter _⟩

/-- The set with every name of a list. -/
def insertMany (set : NameSet) (names : List String) : NameSet := names.foldl insert set

/-- The set without any name of a list. -/
def eraseMany (set : NameSet) (names : List String) : NameSet := names.foldl erase set

/-- The set of the names of a list. -/
def ofList (names : List String) : NameSet := empty.insertMany names

/-- The names of the host environment. -/
def host : NameSet := ofList hostNames

/-- A set of names as a scope. -/
def scope (set : NameSet) : Scope := set.contains

@[simp] theorem contains_insert (set : NameSet) (name other : String) :
    (set.insert name).contains other = (other == name || set.contains other) := by
  unfold insert contains
  split
  · by_cases e : other = name
    · subst e; simp_all
    · simp [e]
  · by_cases e : other = name <;> simp [e]

@[simp] theorem contains_erase (set : NameSet) (name other : String) :
    (set.erase name).contains other = (other != name && set.contains other) := by
  by_cases h : other = name <;> simp [erase, contains, h]

end NameSet

end ScriptForms
