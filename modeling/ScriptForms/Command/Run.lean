import ScriptForms.Command.Arguments
import ScriptForms.Command.Files
import ScriptForms.Form.Json
import ScriptForms.Node.Json
import ScriptForms.Settings
import ScriptForms.Transform

/-!
# Running a command

A command runs in a `World`: files, the standard input, and what has been printed so far. Every file
of a world can be read and written, and holds text. A run that fails says so by its exit status; the
last line that a program prints then, about the cause, is not part of the error output here.

* `Readers`: what reads scripts and settings.
* `Settings.load`: the settings of a command.
* `Job.render`: what is written for a script.
* `Job.convertFiles`: converts files one after the other, up to the first that fails.
* `Job.checkAll`: tries all files.
* `Command.run`: a command.
-/

namespace ScriptForms

/-- The file of the settings, if the command line names no other. -/
def settingsFile : String := "sprig.toml"

/-- Why there are no settings. -/
inductive SettingsError where
  /-- Their file cannot be read. -/
  | unreadable (cause : FileError)
  /-- Their text is no valid document of settings. -/
  | invalid
  deriving DecidableEq, Inhabited

/-- What reads the scripts and the settings of a command. -/
structure Readers where
  script : Reader := Source.reader
  settings : Toml.Reader := Toml.parse?

namespace Settings

/-- The settings of a file. -/
def ofFile (files : Files) (path : String) (reader : Toml.Reader) :
    Except SettingsError Settings :=
  match files.read path with
  | .error cause => .error (.unreadable cause)
  | .ok text =>
    match ofToml? text reader with
    | some settings => .ok settings
    | none => .error .invalid

/-- The settings of the usual file if there is one, and the default settings otherwise. -/
def discover (files : Files) (reader : Toml.Reader) : Except SettingsError Settings :=
  if files.isFile settingsFile then ofFile files settingsFile reader else .ok {}

/-- The settings of the named file, or of the usual one if none is named. -/
def load (files : Files) (path : Option String) (reader : Toml.Reader := Toml.parse?) :
    Except SettingsError Settings :=
  match path with
  | some path => ofFile files path reader
  | none => discover files reader

end Settings

/-- What a command works with, and what it has printed. -/
structure World where
  files : Files := {}
  stdin : String := ""
  stdout : String := ""
  /-- The lines of the error output. -/
  stderr : List String := []
  deriving Inhabited

namespace World

/-- Prints text. -/
def print (world : World) (text : String) : World := { world with stdout := world.stdout ++ text }

/-- Prints lines to the error output. -/
def report (world : World) (lines : List String) : World :=
  { world with stderr := world.stderr ++ lines }

/-- The text of a file, or of the standard input for `-`. The standard input can be read once. -/
def readSource (world : World) (file : String) : Except FileError String × World :=
  if file = "-" then (.ok world.stdin, { world with stdin := "" })
  else (world.files.read file, world)

end World

/-- How files are converted. -/
structure Job where
  reader : Reader := Source.reader
  globals : NameSet
  layout : Layout
  emit : Emit := .cljs
  out : Option String := none
  stdout : Bool := false

namespace Job

/-- A document as text, with a line break at the end. -/
def documentText (document : Json) : String := document.pretty ++ "\n"

/-- What is written for a script. -/
def render (job : Job) (source : String) : Except TransformError String :=
  match job.emit with
  | .cljs => transform job.globals.scope job.layout source job.reader
  | .forms => return documentText (← toForm job.globals.scope source job.reader).toJson
  | .ast => return documentText (← parse source job.reader).toJson

/-- The warnings for a script. -/
def warnings (job : Job) (source : String) : List String :=
  (job.reader.read source).warnings.map fun warning => "WARN " ++ warning.message

/-- The path of the file that is written for a file: beside it, or in the output directory. -/
def outputPath (job : Job) (file : String) : String :=
  let name := Path.stem file.toList ++ '.' :: job.emit.extension.toList
  String.ofList (match job.out with
    | some directory => Path.join directory.toList name
    | none => Path.withFileName file.toList name)

/-- Delivers the text that is written for a file, to the standard output or to its own file. -/
def deliver (job : Job) (world : World) (file text : String) : World × Bool :=
  if job.stdout || file = "-" then (world.print text, true)
  else
    let path := job.outputPath file
    match world.files.write path text with
    | .error _ => (world, false)
    | .ok files =>
      ({ world with files := files }.print (file ++ " -> " ++ path ++ "\n"), true)

/-- Converts one file; also says whether that succeeded. -/
def convertFile (job : Job) (world : World) (file : String) : World × Bool :=
  match world.readSource file with
  | (.error _, world) => (world, false)
  | (.ok source, world) =>
    let world := world.report (job.warnings source)
    match job.render source with
    | .error _ => (world, false)
    | .ok text => job.deliver world file text

/-- Converts files in order, up to the first one that fails. -/
def convertFiles (job : Job) (world : World) : List String → World × Bool
  | [] => (world, true)
  | file :: rest =>
    match job.convertFile world file with
    | (world, true) => convertFiles job world rest
    | (world, false) => (world, false)

/-- Tries to convert one file, and prints the result. -/
def checkOne (job : Job) (world : World) (file : String) : World × Bool :=
  match world.readSource file with
  | (.error cause, world) => (world.report [file ++ ": " ++ cause.message], false)
  | (.ok source, world) =>
    let world := world.report (job.warnings source)
    match job.render source with
    | .error cause => (world.report [file ++ ": " ++ cause.message], false)
    | .ok _ => (world.print ("ok: " ++ file ++ "\n"), true)

/-- Tries to convert every file; also gives the number of files that failed. -/
def checkAll (job : Job) (world : World) : List String → World × Nat
  | [] => (world, 0)
  | file :: rest =>
    let (world, succeeded) := job.checkOne world file
    let (world, failures) := checkAll job world rest
    (world, if succeeded then failures else failures + 1)

end Job

/-- The names of the host environment: those of the settings, then what the command line adds, then
what it leaves out. -/
def Options.nameSet (options : Options) (settings : Settings) : NameSet :=
  (settings.nameSet.insertMany options.globals).eraseMany options.noGlobals

namespace Command

/-- The outcome of a command: its exit status and what is left of the world. -/
structure Outcome where
  status : Nat
  world : World

/-- The exit status of a run. -/
def statusOf (succeeded : Bool) : Nat := if succeeded then 0 else 1

/-- Makes the output directory, if one is named. -/
def makeOut (world : World) : (out : Option String) → Option World
  | none => some world
  | some path =>
    match world.files.makeDirectories path with
    | .ok files => some { world with files := files }
    | .error _ => none

/-- Converts the files of the command line. -/
def runConvert (options : Options) (world : World) (readers : Readers) : Outcome :=
  match Settings.load world.files options.config readers.settings with
  | .error _ => ⟨1, world⟩
  | .ok settings =>
    let job : Job := {
      reader := readers.script
      globals := options.nameSet settings
      layout := if options.raw then .raw else settings.layout
      emit := options.emit.getD .cljs
      out := options.out
      stdout := options.stdout }
    match makeOut world options.out with
    | none => ⟨1, world⟩
    | some world =>
      let (world, succeeded) := job.convertFiles world options.files
      ⟨statusOf succeeded, world⟩

/-- Tries the files of the command line, and prints how many failed. -/
def runCheck (options : Options) (world : World) (readers : Readers) : Outcome :=
  match Settings.load world.files options.config readers.settings with
  | .error _ => ⟨1, world⟩
  | .ok settings =>
    let job : Job := {
      reader := readers.script
      globals := options.nameSet settings
      layout := settings.layout }
    let (world, failures) := job.checkAll world options.files
    let summary := "INFO check finished files=" ++ toString options.files.length ++ " failures=" ++
      toString failures
    ⟨statusOf (failures == 0), world.report [summary]⟩

/-- Runs a command. -/
def run (command : Command) (world : World) (readers : Readers := {}) : Outcome :=
  match command with
  | .convert options => runConvert options world readers
  | .check options => runCheck options world readers

/-- What reads a list of arguments. The result is absent if they make no command. -/
abbrev Reader := List String → Option Command

/-- Runs the command of a list of arguments. Arguments that make no command change nothing. -/
def runArguments (arguments : List String) (world : World) (readers : Readers := {})
    (reader : Reader := parse?) : Outcome :=
  match reader arguments with
  | some command => command.run world readers
  | none => ⟨2, world⟩

end Command

end ScriptForms
