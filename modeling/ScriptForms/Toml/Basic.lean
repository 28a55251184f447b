/-!
# TOML documents

A document is a table. Tables are filled line by line: a header opens a table, and a key with dots
in it reaches into a table and makes what is missing on the way. A table remembers how it came to
be, because that decides what may still be added to it.

* `Toml`: values.
* `Toml.Table.update`: a change at the end of a path.
* `Toml.Table.openTable`, `Toml.Table.openItem`, `Toml.Table.define`: what a header, a header in
  double brackets and a key with a value do.
-/

namespace ScriptForms

/-- How a table came to be. -/
inductive Toml.Origin where
  /-- By a header, or as the document itself. -/
  | header
  /-- As a part of the path of a header. -/
  | implied
  /-- By a key with dots in it. -/
  | dotted
  /-- In braces. -/
  | inline
  /-- By a key with dots in it, in braces. -/
  | inlineDotted
  deriving DecidableEq, Inhabited

/-- A value. -/
inductive Toml where
  | string (value : String)
  | boolean (value : Bool)
  /-- A number, a date or a time, as it is written. -/
  | literal (text : String)
  | array (items : List Toml)
  | table (origin : Toml.Origin) (entries : List (String × Toml))
  /-- An array of tables that is filled by headers; the tables are in reverse order. -/
  | tables (reversed : List (List (String × Toml)))
  deriving Inhabited

namespace Toml

namespace Origin

/-- Whether the keys of a table were written with dots. -/
def isDotted : Origin → Bool
  | .dotted | .inlineDotted => true
  | _ => false

/-- Whether a key with dots may reach into a table. -/
def isOpen : Origin → Bool
  | .implied | .dotted | .inlineDotted => true
  | _ => false

/-- Whether a table stands in braces. -/
def isInline : Origin → Bool
  | .inline | .inlineDotted => true
  | _ => false

end Origin

/-- A table: how it came to be, and its entries in order. -/
structure Table where
  origin : Origin
  entries : List (String × Toml)
  deriving Inhabited

/-- What reads the table of a document. The result is absent if the document is not valid. -/
abbrev Reader := String → Option Table

namespace Table

/-- A table as a value. -/
def toToml (t : Table) : Toml := .table t.origin t.entries

/-- The value of a key. -/
def get? (t : Table) (key : String) : Option Toml := t.entries.lookup key

/-- A table with one more entry. -/
def push (t : Table) (key : String) (value : Toml) : Table :=
  { t with entries := t.entries ++ [(key, value)] }

/-- A table without an entry. -/
def erase (t : Table) (key : String) : Table :=
  { t with entries := t.entries.filter (·.1 ≠ key) }

/-- A table with another value for a key that it has. -/
def replace (t : Table) (key : String) (value : Toml) : Table :=
  { t with entries := t.entries.map fun entry =>
      if entry.1 = key then (key, value) else entry }

/-- Changes the table at the end of a path. What is missing on the way is made with the origin
`made`. By a key with dots (`strict`) a table can be reached only if no header opened it; a table
in braces cannot be reached from outside. -/
def update (made : Origin) (strict : Bool) (change : Table → Option Table) :
    (path : List String) → Table → Option Table
  | [], t => change t
  | key :: path, t =>
    match t.get? key with
    | none => do
      let inner ← update made strict change path ⟨made, []⟩
      return t.push key inner.toToml
    | some (.table origin entries) => do
      guard (if strict then origin.isOpen else !origin.isInline)
      let inner ← update made strict change path ⟨origin, entries⟩
      return t.replace key inner.toToml
    | some (.tables (last :: others)) => do
      let inner ← update made strict change path ⟨.header, last⟩
      return t.replace key (.tables (inner.entries :: others))
    | some _ => none

/-- Opens the table of a header. A table can be opened once. -/
def openTable (key : String) (t : Table) : Option Table :=
  match t.get? key with
  | none => some (t.push key (.table .header []))
  | some (.table .implied entries) => some ((t.erase key).push key (.table .header entries))
  | some _ => none

/-- Opens a further table of an array of tables. -/
def openItem (key : String) (t : Table) : Option Table :=
  match t.get? key with
  | none => some (t.push key (.tables [[]]))
  | some (.tables reversed) => some (t.replace key (.tables ([] :: reversed)))
  | some _ => none

/-- Adds an entry to a table that keys with dots reach (`dotted`) or not. -/
def add (dotted : Bool) (key : String) (value : Toml) (t : Table) : Option Table := do
  guard (t.origin.isDotted = dotted)
  guard (t.get? key).isNone
  return t.push key value

/-- Defines a key with dots between the names of `path` and `key`. -/
def define (made : Origin) (path : List String) (key : String) (value : Toml) (t : Table) :
    Option Table :=
  t.update made true (add (!path.isEmpty) key value) path

end Table

end Toml

end ScriptForms
