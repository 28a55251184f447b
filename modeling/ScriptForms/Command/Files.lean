import ScriptForms.Command.Path

/-!
# Files

A file system in memory: the texts of files under their places, and the directories that hold no
file yet. A place is the list of names on the way from the working directory; `..` at the front
leads out of it, and `/` at the front starts at the top. There are no permissions, and the bytes of
every file are a text in UTF-8, so that a file can be read and written wherever there is one.

* `Files.locate`: the place that a path leads to.
* `Files.read`, `Files.write`, `Files.makeDirectories`: the operations on paths.
-/

namespace ScriptForms

/-- A place in a file system. -/
abbrev Place := List String

/-- Why a file cannot be read or written. -/
inductive FileError where
  | notFound
  | isDirectory
  | notDirectory
  deriving DecidableEq, Inhabited

/-- The wording of an error. -/
def FileError.message : FileError → String
  | .notFound => "No such file or directory"
  | .isDirectory => "Is a directory"
  | .notDirectory => "Not a directory"

/-- A file system. -/
structure Files where
  /-- The texts of the files. -/
  texts : List (Place × String) := []
  /-- Directories that were made. -/
  directories : List Place := []
  deriving Inhabited

namespace Files

/-- The text of the file at a place. -/
def get? (files : Files) (place : Place) : Option String := files.texts.lookup place

/-- Whether a place lies outside of the working directory as a directory of its own. -/
def isOuter (place : Place) : Bool := place = ["/"] || place.all (· == "..")

/-- Whether a place is a directory. -/
def isDirectory (files : Files) (place : Place) : Bool :=
  isOuter place || files.directories.any (place.isPrefixOf ·) ||
    files.texts.any fun entry => place.isPrefixOf entry.1 && place ≠ entry.1

/-- The place one step further. -/
def enter (place : Place) (component : String) : Place :=
  match component with
  | "" | "." => place
  | ".." =>
    match place.getLast? with
    | none | some ".." => place ++ [".."]
    | some "/" => place
    | some _ => place.dropLast
  | name => place ++ [name]

/-- The place that components lead to. All of them but the last must be directories. -/
def walk (files : Files) (place : Place) : List String → Except FileError Place
  | [] => .ok place
  | [component] => .ok (enter place component)
  | component :: rest =>
    let next := enter place component
    if files.isDirectory next then walk files next rest
    else if (files.get? next).isSome then .error .notDirectory
    else .error .notFound

/-- The place where a path starts, and its components. -/
def stepsOf (path : String) : Place × List String :=
  let components := (Path.components path.toList).map String.ofList
  if path.toList.head? = some '/' then (["/"], components) else ([], components)

/-- The place that a path leads to. -/
def locate (files : Files) (path : String) : Except FileError Place :=
  if path.isEmpty then .error .notFound
  else files.walk (stepsOf path).1 (stepsOf path).2

/-- The text of a file. -/
def read (files : Files) (path : String) : Except FileError String := do
  let place ← files.locate path
  match files.get? place with
  | some text => return text
  | none => throw (if files.isDirectory place then .isDirectory else .notFound)

/-- Whether a path leads to a file. -/
def isFile (files : Files) (path : String) : Bool :=
  match files.read path with
  | .ok _ => true
  | .error _ => false

/-- A file system with another text at a place. -/
def set (files : Files) (place : Place) (text : String) : Files :=
  if (files.get? place).isSome then
    { files with texts := files.texts.map fun entry =>
        if entry.1 = place then (place, text) else entry }
  else { files with texts := files.texts ++ [(place, text)] }

/-- Writes a file. Its directory must exist. -/
def write (files : Files) (path text : String) : Except FileError Files := do
  let place ← files.locate path
  if files.isDirectory place then throw .isDirectory
  return files.set place text

/-- Makes the directories that components lead to. -/
def makeWalk (files : Files) (place : Place) : List String → Except FileError Files
  | [] => .ok files
  | component :: rest =>
    let next := enter place component
    if files.isDirectory next then makeWalk files next rest
    else if (files.get? next).isSome then .error .notDirectory
    else makeWalk { files with directories := files.directories ++ [next] } next rest

/-- Makes a directory and all directories on the way to it. -/
def makeDirectories (files : Files) (path : String) : Except FileError Files :=
  files.makeWalk (stepsOf path).1 (stepsOf path).2

/-- The file system with the given texts. -/
def ofList (texts : List (String × String)) : Files :=
  { texts := texts.map fun (path, text) => ((stepsOf path).2, text) }

/-- The path of a place. -/
def pathOf (place : Place) : String := "/".intercalate place

/-- The files that are new or have another text than before, as paths and texts. -/
def changesSince (files before : Files) : List (String × String) :=
  (files.texts.filter fun (place, text) => before.get? place ≠ some text).map fun (place, text) =>
    (pathOf place, text)

theorem lookup_replace {texts : List (Place × String)} {place : Place} (text : String)
    (h : (texts.lookup place).isSome) :
    (texts.map fun entry => if entry.1 = place then (place, text) else entry).lookup place =
      some text := by
  induction texts with
  | nil => simp at h
  | cons entry texts ih =>
    obtain ⟨other, content⟩ := entry
    by_cases e : other = place
    · simp [e]
    · have e' : (place == other) = false := beq_false_of_ne (Ne.symm e)
      simp only [List.lookup_cons, e'] at h
      simp only [List.map_cons, e, if_false, List.lookup_cons, e']
      exact ih h

theorem lookup_append_self {texts : List (Place × String)} {place : Place} (text : String)
    (h : ¬(texts.lookup place).isSome) : (texts ++ [(place, text)]).lookup place = some text := by
  induction texts with
  | nil => simp
  | cons entry texts ih =>
    obtain ⟨other, content⟩ := entry
    by_cases e : other = place
    · simp [e] at h
    · have e' : (place == other) = false := beq_false_of_ne (Ne.symm e)
      simp only [List.lookup_cons, e'] at h
      simp only [List.cons_append, List.lookup_cons, e']
      exact ih h

@[simp] theorem get?_set_self (files : Files) (place : Place) (text : String) :
    (files.set place text).get? place = some text := by
  unfold set
  split
  · exact lookup_replace text ‹_›
  · exact lookup_append_self text ‹_›

end Files

end ScriptForms
