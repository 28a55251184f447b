/-!
# Paths

A path is text with slashes between its components. Empty components and single dots after the
first component have no effect.

* `Path.fileName?`: the last component, if it names a file.
* `Path.stem`: the name of a file without its extension.
* `Path.withFileName`, `Path.join`: another file in the same or a given directory.
-/

namespace ScriptForms.Path

/-- The components of a path, separated by slashes. -/
def components (path : List Char) : List (List Char) := path.splitOn '/'

/-- A path without slashes and single dots at its end. The first component stays. -/
def trimEnd (path : List Char) : List Char :=
  let trimmed := ((components path).reverse.dropWhile fun c => c.isEmpty || c == ['.']).reverse
  match trimmed, path with
  | [], '/' :: _ => ['/']
  | [], '.' :: _ => ['.']
  | [[]], '/' :: _ => ['/']
  | _, _ => ['/'].intercalate trimmed

/-- The last component of a path, if it names a file. -/
def fileName? (path : List Char) : Option (List Char) :=
  match (components (trimEnd path)).getLast? with
  | some last => if last.isEmpty || last = ['.'] || last = ['.', '.'] then none else some last
  | none => none

/-- A name without its extension, which starts at the last dot. A dot at the very front starts no
extension. -/
def stemOf (name : List Char) : List Char :=
  let ending := (name.reverse.takeWhile (· ≠ '.')).length
  let front := name.take (name.length - ending - 1)
  if front.isEmpty || !name.contains '.' then name else front

/-- The name of a file without its extension. -/
def stem (path : List Char) : List Char := ((fileName? path).map stemOf).getD []

/-- A file in a directory. -/
def join (directory name : List Char) : List Char :=
  if directory.isEmpty then name
  else if directory.getLast? = some '/' then directory ++ name
  else directory ++ '/' :: name

/-- The directory of a file. -/
def parent (path : List Char) : List Char :=
  let trimmed := trimEnd path
  match fileName? path with
  | some last =>
    let front := trimmed.take (trimmed.length - last.length)
    if front.isEmpty then [] else trimEnd front
  | none => trimmed

/-- Another file in the directory of a file. -/
def withFileName (path name : List Char) : List Char := join (parent path) name

end ScriptForms.Path
