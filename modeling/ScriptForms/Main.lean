import ScriptForms.Command.Run

/-!
# The program

Loads the files that a command can read, runs the command on them, and carries out what it did.
-/

namespace ScriptForms.Program

/-- The text of a file, if it can be read. -/
def readText? (path : String) : IO (Option String) := do
  try
    return some (← IO.FS.readFile path)
  catch _ => return none

/-- The paths that a command may read. -/
def readPaths (options : Options) : List String :=
  options.files ++ [options.config.getD settingsFile]

/-- The options of a command. -/
def optionsOfCommand : Command → Options
  | .convert options | .check options => options

/-- Loads the files that a command may read. -/
def loadFiles (options : Options) : IO Files := do
  let mut files : Files := {}
  for path in readPaths options do
    if path ≠ "-" then
      if let some text ← readText? path then
        let (base, steps) := Files.stepsOf path
        files := files.set (steps.foldl Files.enter base) text
  if let some out := options.out then
    if let .ok made := files.makeDirectories out then files := made
  return files

/-- Writes the files that a command has changed, and prints its output. -/
def carryOut (options : Options) (before : Files) (outcome : Command.Outcome) : IO Unit := do
  if let some out := options.out then
    IO.FS.createDirAll out
  for (path, text) in outcome.world.files.changesSince before do
    IO.FS.writeFile path text
  IO.print outcome.world.stdout
  for line in outcome.world.stderr do
    IO.eprintln line

end ScriptForms.Program

open ScriptForms Program in
/-- The program. -/
def main (arguments : List String) : IO UInt32 := do
  match Command.parse? arguments with
  | none =>
    IO.eprintln "usage: (translate | check) [options] files"
    return 2
  | some command =>
    let options := optionsOfCommand command
    let files ← loadFiles options
    let stdin ← if options.files.contains "-" then (← IO.getStdin).readToEnd else pure ""
    let outcome := command.run { files, stdin }
    carryOut options files outcome
    return UInt32.ofNat outcome.status
