/-!
# The command line

* `Command`: what the command line asks for.
* `Command.parse?`: the command of a list of arguments. Options and files can stand in any order;
  an option takes its value from the same argument or from the next one, and `--` ends the options.
-/

namespace ScriptForms

/-- What is written for a script. -/
inductive Emit where
  /-- ClojureScript. -/
  | cljs
  /-- The form of the script, as a document. -/
  | forms
  /-- The tree of the script, as a document. -/
  | ast
  deriving DecidableEq, Inhabited

namespace Emit

/-- The extension of the files that are written. -/
def extension : Emit → String
  | .cljs => "cljs"
  | .forms => "forms.json"
  | .ast => "ast.json"

/-- What a name on the command line stands for. -/
def ofName? : String → Option Emit
  | "cljs" => some .cljs
  | "forms" => some .forms
  | "ast" => some .ast
  | _ => none

end Emit

/-- The options and files of a command. -/
structure Options where
  files : List String := []
  out : Option String := none
  stdout : Bool := false
  emit : Option Emit := none
  config : Option String := none
  /-- Names that are added to the host environment. -/
  globals : List String := []
  /-- Names that are left out of the host environment. -/
  noGlobals : List String := []
  raw : Bool := false
  deriving DecidableEq, Inhabited

/-- A command: to convert files, or only to check that they can be converted. -/
inductive Command where
  | convert (options : Options)
  | check (options : Options)
  deriving DecidableEq, Inhabited

namespace Command

/-- The options. -/
inductive Name where
  | out
  | stdout
  | emit
  | config
  | global
  | noGlobal
  | raw
  deriving DecidableEq, Inhabited

namespace Name

/-- The option of a long name. -/
def ofLong? : String → Option Name
  | "out" => some .out
  | "stdout" => some .stdout
  | "emit" => some .emit
  | "config" => some .config
  | "global" => some .global
  | "no-global" => some .noGlobal
  | "raw" => some .raw
  | _ => none

/-- The option of a letter. -/
def ofShort? : Char → Option Name
  | 'o' => some .out
  | 'c' => some .config
  | _ => none

/-- Whether `check` has the option too. -/
def isShared : Name → Bool
  | .config | .global | .noGlobal => true
  | _ => false

/-- Whether an option has no value. -/
def isFlag : Name → Bool
  | .stdout | .raw => true
  | _ => false

end Name

/-- Sets an option to a value. Only the names for the host environment can be given repeatedly, and
the names of a directory or a file are not empty. -/
def setValue (options : Options) (name : Name) (value : String) : Option Options :=
  match name with
  | .out =>
    if options.out.isSome || value.isEmpty then none else some { options with out := some value }
  | .config =>
    if options.config.isSome || value.isEmpty then none
    else some { options with config := some value }
  | .emit => do
    guard options.emit.isNone
    return { options with emit := some (← Emit.ofName? value) }
  | .global => some { options with globals := options.globals ++ [value] }
  | .noGlobal => some { options with noGlobals := options.noGlobals ++ [value] }
  | .stdout | .raw => none

/-- Sets an option without a value. It can be given once. -/
def setFlag (options : Options) (name : Name) : Option Options :=
  match name with
  | .stdout => if options.stdout then none else some { options with stdout := true }
  | .raw => if options.raw then none else some { options with raw := true }
  | _ => none

/-- What an argument is. -/
inductive Argument where
  /-- The end of the options. -/
  | terminator
  | file (name : String)
  /-- An option, with the value that stands in the same argument. -/
  | option (name : Name) (value : Option String)
  | unknown

/-- The value behind an equals sign. -/
def valueAfterEquals : List Char → Option String
  | '=' :: rest => some (String.ofList rest)
  | _ => none

/-- Reads an argument. -/
def Argument.ofText (text : String) : Argument :=
  match text.toList with
  | ['-', '-'] => .terminator
  | '-' :: '-' :: rest =>
    match Name.ofLong? (String.ofList (rest.takeWhile (· ≠ '='))) with
    | some name => .option name (valueAfterEquals (rest.dropWhile (· ≠ '=')))
    | none => .unknown
  | '-' :: letter :: rest =>
    match Name.ofShort? letter with
    | some name =>
      match rest with
      | [] => .option name none
      | '=' :: value => .option name (some (String.ofList value))
      | value => .option name (some (String.ofList value))
    | none => .unknown
  | _ => .file text

/-- Whether an argument can be the value of the option before it. -/
def isValue (text : String) : Bool :=
  match Argument.ofText text with
  | .file _ => true
  | _ => false

/-- The options and files of the arguments behind a command. -/
def scan (allowed : Name → Bool) (options : Options) : List String → Option Options
  | [] => some options
  | text :: rest =>
    match Argument.ofText text with
    | .terminator => some { options with files := options.files ++ rest }
    | .file name => scan allowed { options with files := options.files ++ [name] } rest
    | .unknown => none
    | .option name attached =>
      if !allowed name then none
      else if name.isFlag then
        match attached with
        | some _ => none
        | none => (setFlag options name).bind fun options => scan allowed options rest
      else
        match attached with
        | some value => (setValue options name value).bind fun options => scan allowed options rest
        | none =>
          match rest with
          | [] => none
          | value :: others =>
            if isValue value then
              (setValue options name value).bind fun options => scan allowed options others
            else none

/-- The options of a command, with at least one file. -/
def optionsOf (allowed : Name → Bool) (arguments : List String) : Option Options := do
  let options ← scan allowed {} arguments
  guard !options.files.isEmpty
  return options

/-- The command of a list of arguments. -/
def parse? : List String → Option Command
  | "translate" :: rest => (optionsOf (fun _ => true) rest).map .convert
  | "check" :: rest => (optionsOf Name.isShared rest).map .check
  | _ => none

end Command

end ScriptForms
