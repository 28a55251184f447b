import ScriptForms.Command.Run
import ScriptForms.Proofs.Command.Files

/-!
# Where a run stops and what it leaves behind

A run that converts files takes them in order and stops at the first one that cannot be read,
rendered or written. A file is written for each file before that one, and nothing else changes;
where two of them are written to the same place, the later one is left. A run that only checks goes
through all files and writes none.

* `Job.outputPlace?`: the place of what is written for a file.
* `Job.Converts`: a file that can be converted, and its text.
* `Job.after`: the world after some files, which is the world at the turn of the next one.
* `Job.Leaves`: what the conversion of some files leaves of a file system.
* `Files.readings`: what a run over files reads for each of them.
* `Command.run_boundary`: both kinds of runs.
-/

namespace ScriptForms

namespace Files

variable {files other : Files}

/-- The place that a path leads to, if it leads anywhere. -/
def place? (files : Files) (path : String) : Option Place := (files.locate path).toOption

theorem place?_eq_some {path : String} {place : Place} :
    files.place? path = some place ↔ files.locate path = .ok place := by
  unfold place?
  cases files.locate path <;> simp [Except.toOption]

theorem SameDirectories.place?_eq (h : SameDirectories files other) (path : String) :
    files.place? path = other.place? path := by
  ext place
  rw [place?_eq_some, place?_eq_some]
  exact h.locate_eq_ok

/-- The file system with another text at a place, if one is given. -/
def setAt (files : Files) : Option Place → String → Files
  | none, _ => files
  | some place, text => files.set place text

@[simp] theorem directories_setAt (files : Files) (place : Option Place) (text : String) :
    (files.setAt place text).directories = files.directories := by
  cases place with
  | none => rfl
  | some place => exact files.directories_set place text

theorem get?_setAt_of_ne (files : Files) {target : Option Place} {place : Place} (text : String)
    (h : target ≠ some place) : (files.setAt target text).get? place = files.get? place := by
  cases target with
  | none => rfl
  | some own => exact files.get?_set_of_ne text fun heq => h (congrArg some heq.symm)

end Files

namespace Job

variable {job : Job} {world start : World} {file text : String}

/-! ### One file -/

/-- The place of what is written for a file. There is none for what is printed. -/
def outputPlace? (job : Job) (files : Files) (file : String) : Option Place :=
  if job.stdout || file = "-" then none else files.place? (job.outputPath file)

/-- What is rendered for the file is printed, or can be written to its place. -/
def CanDeliver (job : Job) (files : Files) (file : String) : Prop :=
  job.stdout ∨ file = "-" ∨
    ∃ place, job.outputPlace? files file = some place ∧ ¬files.isDirectory place

/-- The file can be read, rendered to the text and delivered. -/
structure Converts (job : Job) (world : World) (file text : String) : Prop where
  rendered : ∃ source, (world.readSource file).1 = .ok source ∧ job.render source = .ok text
  delivered : job.CanDeliver world.files file

theorem outputPlace?_eq_of_sameDirectories {files other : Files} (h : files.SameDirectories other)
    (job : Job) (file : String) : job.outputPlace? files file = job.outputPlace? other file := by
  rw [outputPlace?, outputPlace?, h.place?_eq]

theorem outputPlace?_eq_none_of (h : job.stdout ∨ file = "-") (files : Files) :
    job.outputPlace? files file = none := by
  rw [outputPlace?, if_pos (by simpa using h)]

theorem sameDirectories_setAt (job : Job) (files : Files) (file text : String) :
    files.SameDirectories (files.setAt (job.outputPlace? files file) text) := by
  unfold outputPlace?
  split
  · exact fun _ => rfl
  · cases h : files.place? (job.outputPath file) with
    | none => exact fun _ => rfl
    | some place => exact Files.sameDirectories_set (Files.place?_eq_some.1 h) text

@[simp] theorem files_readSource (world : World) (file : String) :
    (world.readSource file).2.files = world.files := by
  unfold World.readSource
  split <;> rfl

theorem deliver_of_canDeliver (h : job.CanDeliver world.files file) :
    (job.deliver world file text).2 = true ∧
      (job.deliver world file text).1.files =
        world.files.setAt (job.outputPlace? world.files file) text := by
  by_cases hprint : job.stdout ∨ file = "-"
  · rw [outputPlace?_eq_none_of hprint, deliver, if_pos (by simpa using hprint)]
    exact ⟨rfl, rfl⟩
  · obtain ⟨place, hplace, hfree⟩ : ∃ place, job.outputPlace? world.files file = some place ∧
        ¬world.files.isDirectory place := by
      unfold CanDeliver at h
      tauto
    have hpath := hplace
    rw [outputPlace?, if_neg (by simpa using hprint), Files.place?_eq_some] at hpath
    have hwrite : world.files.write (job.outputPath file) text = .ok (world.files.set place text) :=
      Files.write_eq_ok.2 ⟨place, hpath, hfree, rfl⟩
    rw [hplace, deliver, if_neg (by simpa using hprint)]
    simp only [hwrite]
    exact ⟨trivial, rfl⟩

theorem deliver_of_not_canDeliver (h : ¬job.CanDeliver world.files file) :
    job.deliver world file text = (world, false) := by
  have hprint : ¬(job.stdout ∨ file = "-") := fun hp => h (hp.elim .inl fun e => .inr (.inl e))
  rw [deliver, if_neg (by simpa using hprint)]
  cases hwrite : world.files.write (job.outputPath file) text with
  | error cause => simp only [hwrite]
  | ok files =>
    obtain ⟨place, hpath, hfree, -⟩ := Files.write_eq_ok.1 hwrite
    refine absurd (.inr (.inr ⟨place, ?_, hfree⟩)) h
    rw [outputPlace?, if_neg (by simpa using hprint), Files.place?_eq_some]
    exact hpath

/-- A file that can be converted is delivered; only the place of its output changes. -/
theorem convertFile_of_converts (h : job.Converts world file text) :
    (job.convertFile world file).2 = true ∧
      (job.convertFile world file).1.files =
        world.files.setAt (job.outputPlace? world.files file) text := by
  obtain ⟨⟨source, hsource, hrender⟩, hdeliver⟩ := h
  have hfiles := files_readSource world file
  unfold convertFile
  cases hreading : world.readSource file with
  | mk result next =>
    rw [hreading] at hsource hfiles
    subst hsource
    rw [← show next.files = world.files from hfiles] at hdeliver ⊢
    simp only [hrender]
    exact deliver_of_canDeliver
      (show job.CanDeliver (next.report (job.warnings source)).files file from hdeliver)

/-- A file that cannot be converted changes no file. -/
theorem convertFile_of_not_converts (h : ∀ text, ¬job.Converts world file text) :
    (job.convertFile world file).2 = false ∧
      (job.convertFile world file).1.files = world.files := by
  have hfiles := files_readSource world file
  unfold convertFile
  cases hreading : world.readSource file with
  | mk result next =>
    rw [hreading] at hfiles
    cases result with
    | error cause => exact ⟨rfl, hfiles⟩
    | ok source =>
      cases hrender : job.render source with
      | error cause =>
        simp only [hrender]
        exact ⟨trivial, hfiles⟩
      | ok text =>
        have hcannot : ¬job.CanDeliver (next.report (job.warnings source)).files file := by
          intro hcan
          refine h text ⟨⟨source, by rw [hreading], hrender⟩, ?_⟩
          rw [← hfiles]
          exact hcan
        simp only [hrender, deliver_of_not_canDeliver hcannot]
        exact ⟨trivial, hfiles⟩

/-! ### Files in order -/

/-- The world after the conversion of some files. -/
def after (job : Job) (start : World) (files : List String) : World :=
  (job.convertFiles start files).1

theorem convertFiles_cons (h : job.Converts start file text) (rest : List String) :
    job.convertFiles start (file :: rest) =
      job.convertFiles (job.convertFile start file).1 rest := by
  obtain ⟨hsucceeded, -⟩ := convertFile_of_converts h
  rw [convertFiles]
  generalize job.convertFile start file = result at hsucceeded
  obtain ⟨next, succeeded⟩ := result
  subst hsucceeded
  rfl

theorem convertFiles_of_not_converts (h : ∀ text, ¬job.Converts start file text)
    (rest : List String) :
    (job.convertFiles start (file :: rest)).2 = false ∧
      (job.after start (file :: rest)).files = start.files := by
  obtain ⟨hfailed, hfiles⟩ := convertFile_of_not_converts h
  rw [after, convertFiles]
  generalize job.convertFile start file = result at hfailed hfiles
  obtain ⟨next, succeeded⟩ := result
  subst hfailed
  exact ⟨rfl, hfiles⟩

/-- Every file can be converted at its turn. -/
def ConvertsAll (job : Job) (start : World) (files : List String) : Prop :=
  ∀ front file back, files = front ++ file :: back →
    ∃ text, job.Converts (job.after start front) file text

theorem convertsAll_nil (job : Job) (start : World) : job.ConvertsAll start [] := by
  intro front file back h
  simp at h

theorem ConvertsAll.cons (h : job.Converts start file text) {rest : List String}
    (hrest : job.ConvertsAll (job.convertFile start file).1 rest) :
    job.ConvertsAll start (file :: rest) := by
  intro front other back hsplit
  cases front with
  | nil =>
    obtain ⟨rfl, -⟩ := List.cons.inj hsplit
    exact ⟨text, h⟩
  | cons first front =>
    obtain ⟨rfl, rfl⟩ := List.cons.inj hsplit
    rw [after, convertFiles_cons h]
    exact hrest front other back rfl

theorem ConvertsAll.head {rest : List String} (h : job.ConvertsAll start (file :: rest)) :
    ∃ text, job.Converts start file text :=
  h [] file rest rfl

theorem ConvertsAll.tail {rest : List String} (h : job.ConvertsAll start (file :: rest)) :
    job.ConvertsAll (job.convertFile start file).1 rest := by
  obtain ⟨text, hfile⟩ := h.head
  intro front other back hsplit
  have := h (file :: front) other back (by rw [hsplit]; rfl)
  rwa [after, convertFiles_cons hfile] at this

theorem ConvertsAll.front {front back : List String} (h : job.ConvertsAll start (front ++ back)) :
    job.ConvertsAll start front := by
  intro before file behind hsplit
  exact h before file (behind ++ back) (by rw [hsplit, List.append_assoc]; rfl)

/-- The directories stay the same from file to file. -/
theorem ConvertsAll.sameDirectories {files : List String} (h : job.ConvertsAll start files) :
    start.files.SameDirectories (job.after start files).files := by
  induction files generalizing start with
  | nil => exact fun _ => rfl
  | cons file files ih =>
    obtain ⟨text, hfile⟩ := h.head
    have hfirst := sameDirectories_setAt job start.files file text
    rw [← (convertFile_of_converts hfile).2] at hfirst
    rw [after, convertFiles_cons hfile]
    exact hfirst.trans (ih h.tail)

/-- A run stops at the first file that cannot be converted at its turn. -/
theorem convertFiles_split (job : Job) (start : World) (files : List String) :
    ∃ done rest, files = done ++ rest ∧ job.ConvertsAll start done ∧
      (∀ file others, rest = file :: others →
        ∀ text, ¬job.Converts (job.after start done) file text) ∧
      ((job.convertFiles start files).2 = true ↔ rest = []) ∧
      (job.after start files).files = (job.after start done).files := by
  induction files generalizing start with
  | nil => exact ⟨[], [], rfl, convertsAll_nil job start, by simp, by simp [convertFiles], rfl⟩
  | cons file files ih =>
    by_cases h : ∃ text, job.Converts start file text
    · obtain ⟨text, hfile⟩ := h
      obtain ⟨done, rest, rfl, hdone, hstop, hsucceeded, hfiles⟩ :=
        ih (job.convertFile start file).1
      refine ⟨file :: done, rest, rfl, hdone.cons hfile, ?_, ?_, ?_⟩
      · rwa [after, convertFiles_cons hfile]
      · rwa [convertFiles_cons hfile]
      · rwa [after, after, convertFiles_cons hfile, convertFiles_cons hfile]
    · rw [not_exists] at h
      obtain ⟨hfailed, hfiles⟩ := convertFiles_of_not_converts h files
      refine ⟨[], file :: files, rfl, convertsAll_nil job start, ?_, by simp [hfailed], hfiles⟩
      rintro _ _ heq
      obtain ⟨rfl, rfl⟩ := List.cons.inj heq
      exact h

/-- What the conversion of files leaves of a file system: the place of what is written for a file
has the text of the last file that is written there, and all other places are as before. -/
structure Leaves (job : Job) (start : World) (done : List String) (files : Files) : Prop where
  directories : files.directories = start.files.directories
  untouched : ∀ place, (∀ file ∈ done, job.outputPlace? start.files file ≠ some place) →
    files.get? place = start.files.get? place
  written : ∀ front file back place, done = front ++ file :: back →
    job.outputPlace? start.files file = some place →
    (∀ later ∈ back, job.outputPlace? start.files later ≠ some place) →
    ∃ text, job.Converts (job.after start front) file text ∧ files.get? place = some text

theorem leaves_nil (job : Job) (start : World) : job.Leaves start [] start.files where
  directories := rfl
  untouched := fun _ _ => rfl
  written := fun front file back place h => by simp at h

/-- One more file in front. -/
theorem Leaves.cons (h : job.Converts start file text) {done : List String} {files : Files}
    (hdone : job.Leaves (job.convertFile start file).1 done files) :
    job.Leaves start (file :: done) files := by
  obtain ⟨-, hfiles⟩ := convertFile_of_converts h
  have hplaces : ∀ other, job.outputPlace? (job.convertFile start file).1.files other =
      job.outputPlace? start.files other := by
    intro other
    rw [hfiles]
    exact (outputPlace?_eq_of_sameDirectories
      (sameDirectories_setAt job start.files file text) job other).symm
  obtain ⟨hdirectories, huntouched, hwritten⟩ := hdone
  simp only [hplaces] at huntouched hwritten
  refine ⟨?_, ?_, ?_⟩
  · rw [hdirectories, hfiles, Files.directories_setAt]
  · intro place hplace
    rw [List.forall_mem_cons] at hplace
    rw [huntouched place hplace.2, hfiles, Files.get?_setAt_of_ne _ _ hplace.1]
  · intro front other back place hsplit hplace hlater
    cases front with
    | nil =>
      -- Nothing that follows is written to the place of this file.
      obtain ⟨rfl, rfl⟩ := List.cons.inj hsplit
      refine ⟨text, h, ?_⟩
      rw [huntouched place hlater, hfiles, hplace]
      exact Files.get?_set_self ..
    | cons first front =>
      obtain ⟨rfl, rfl⟩ := List.cons.inj hsplit
      rw [after, convertFiles_cons h]
      exact hwritten front other back place rfl hplace hlater

theorem ConvertsAll.leaves {files : List String} (h : job.ConvertsAll start files) :
    job.Leaves start files (job.after start files).files := by
  induction files generalizing start with
  | nil => exact leaves_nil job start
  | cons file files ih =>
    obtain ⟨text, hfile⟩ := h.head
    rw [after, convertFiles_cons hfile]
    exact (ih h.tail).cons hfile

/-! ### Checks -/

/-- Why what was read for a file has no text, if it has none. -/
def failure? (job : Job) : Except FileError String → Option String
  | .error cause => some cause.message
  | .ok source =>
    match job.render source with
    | .error cause => some cause.message
    | .ok _ => none

/-- The line that is printed for a file if nothing is wrong with it. -/
def successText (job : Job) (reading : String × Except FileError String) : String :=
  if (job.failure? reading.2).isNone then "ok: " ++ reading.1 ++ "\n" else ""

/-- The lines of the error output for a file: the warnings for its script, and the failure. -/
def errorLines (job : Job) (reading : String × Except FileError String) : List String :=
  (match reading.2 with
    | .error _ => []
    | .ok source => job.warnings source) ++
  ((job.failure? reading.2).map (reading.1 ++ ": " ++ ·)).toList

end Job

/-- What a run over files reads for each of them. The standard input is there for the first `-`
only. -/
def Files.readings (files : Files) : (stdin : String) → List String →
    List (String × Except FileError String)
  | _, [] => []
  | stdin, file :: rest =>
    if file = "-" then (file, .ok stdin) :: files.readings "" rest
    else (file, files.read file) :: files.readings stdin rest

namespace Job

theorem readings_cons (world : World) (file : String) (rest : List String) :
    world.files.readings world.stdin (file :: rest) =
      (file, (world.readSource file).1) ::
        (world.readSource file).2.files.readings (world.readSource file).2.stdin rest := by
  rw [Files.readings, World.readSource]
  split <;> rfl

/-- A checked file leaves one line, on the standard output or on the error output. -/
theorem checkOne_eq (job : Job) (world : World) (file : String) :
    job.checkOne world file =
      ((((world.readSource file).2.print (job.successText (file, (world.readSource file).1))).report
        (job.errorLines (file, (world.readSource file).1))),
        (job.failure? (world.readSource file).1).isNone) := by
  unfold checkOne
  obtain ⟨result, next⟩ := world.readSource file
  cases result with
  | error cause => simp [failure?, successText, errorLines, World.print]
  | ok source =>
    cases hrender : job.render source with
    | error cause =>
      simp [failure?, successText, errorLines, hrender, World.print, World.report]
    | ok text => simp [failure?, successText, errorLines, hrender, World.print, World.report]

/-- A run of checks goes through all files and changes none. -/
theorem checkAll_eq (job : Job) (world : World) (files : List String) :
    (job.checkAll world files).1.files = world.files ∧
    (job.checkAll world files).1.stdout = world.stdout ++
      String.join ((world.files.readings world.stdin files).map job.successText) ∧
    (job.checkAll world files).1.stderr = world.stderr ++
      (world.files.readings world.stdin files).flatMap job.errorLines ∧
    (job.checkAll world files).2 =
      (world.files.readings world.stdin files).countP fun reading =>
        (job.failure? reading.2).isSome := by
  induction files generalizing world with
  | nil => simp [checkAll, Files.readings, String.join]
  | cons file rest ih =>
    obtain ⟨hfiles, hstdout, hstderr, hfailures⟩ := ih (job.checkOne world file).1
    have hworld : (job.checkOne world file).1.files = world.files ∧
        (job.checkOne world file).1.stdin = (world.readSource file).2.stdin := by
      rw [checkOne_eq]
      exact ⟨files_readSource world file, rfl⟩
    have hprinted : (world.readSource file).2.stdout = world.stdout ∧
        (world.readSource file).2.stderr = world.stderr := by
      unfold World.readSource
      split <;> exact ⟨rfl, rfl⟩
    rw [hworld.1, hworld.2] at hstdout hstderr hfailures
    simp only [checkAll]
    rw [readings_cons, files_readSource]
    refine ⟨hfiles.trans hworld.1, ?_, ?_, ?_⟩
    · rw [hstdout, checkOne_eq, List.map_cons, String.join_cons, ← String.append_assoc,
        ← hprinted.1]
      rfl
    · rw [hstderr, checkOne_eq, List.flatMap_cons, ← List.append_assoc, ← hprinted.2]
      rfl
    · rw [hfailures, checkOne_eq, List.countP_cons]
      cases job.failure? (world.readSource file).1 <;> rfl

end Job

namespace Command

/-! ### Commands -/

/-- How the files of a command are converted. -/
def convertJob (options : Options) (settings : Settings) (readers : Readers := {}) : Job where
  reader := readers.script
  globals := options.nameSet settings
  layout := if options.raw then .raw else settings.layout
  emit := options.emit.getD .cljs
  out := options.out
  stdout := options.stdout

/-- How the files of a command are checked. -/
def checkJob (options : Options) (settings : Settings) (readers : Readers := {}) : Job where
  reader := readers.script
  globals := options.nameSet settings
  layout := settings.layout

/-- A run that converts files from a world on: the files up to the first one that cannot be
converted at its turn, and what is left of the file system. -/
structure StopsAfter (job : Job) (start : World) (files : List String) (outcome : Outcome)
    (done rest : List String) : Prop where
  split : files = done ++ rest
  converted : job.ConvertsAll start done
  stopped : ∀ file others, rest = file :: others →
    ∀ text, ¬job.Converts (job.after start done) file text
  status : outcome.status = 0 ↔ rest = []
  leaves : job.Leaves start done outcome.world.files

/-- A run that checks files in a world: one line for each of them in order, and the number of
failures at the end. -/
structure ChecksAll (job : Job) (world : World) (files : List String) (outcome : Outcome)
    (failures : Nat) : Prop where
  unchanged : outcome.world.files = world.files
  stdout : outcome.world.stdout = world.stdout ++
    String.join ((world.files.readings world.stdin files).map job.successText)
  stderr : outcome.world.stderr = world.stderr ++
    (world.files.readings world.stdin files).flatMap job.errorLines ++
    ["INFO check finished files=" ++ toString files.length ++ " failures=" ++ toString failures]
  failed : failures = (world.files.readings world.stdin files).countP fun reading =>
    (job.failure? reading.2).isSome
  status : outcome.status = 0 ↔ failures = 0

variable {options : Options} {world start : World} {settings : Settings} {readers : Readers}

theorem statusOf_eq_zero {succeeded : Bool} : statusOf succeeded = 0 ↔ succeeded = true := by
  cases succeeded <;> simp [statusOf]

theorem run_convert
    (hsettings : Settings.load world.files options.config readers.settings = .ok settings)
    (hstart : makeOut world options.out = some start) :
    (Command.convert options).run world readers =
      ⟨statusOf ((convertJob options settings readers).convertFiles start options.files).2,
        (convertJob options settings readers).after start options.files⟩ := by
  simp only [run, runConvert, hsettings, hstart]
  rfl

theorem stopsAfter_run
    (hsettings : Settings.load world.files options.config readers.settings = .ok settings)
    (hstart : makeOut world options.out = some start) :
    ∃ done rest, StopsAfter (convertJob options settings readers) start options.files
      ((Command.convert options).run world readers) done rest := by
  obtain ⟨done, rest, hsplit, hdone, hstop, hsucceeded, hfiles⟩ :=
    (convertJob options settings readers).convertFiles_split start options.files
  rw [run_convert hsettings hstart]
  refine ⟨done, rest, hsplit, hdone, hstop, statusOf_eq_zero.trans hsucceeded, ?_⟩
  rw [hfiles]
  exact hdone.leaves

theorem checksAll_run
    (hsettings : Settings.load world.files options.config readers.settings = .ok settings) :
    ∃ failures, ChecksAll (checkJob options settings readers) world options.files
      ((Command.check options).run world readers) failures := by
  obtain ⟨hfiles, hstdout, hstderr, hfailures⟩ :=
    (checkJob options settings readers).checkAll_eq world options.files
  refine ⟨((checkJob options settings readers).checkAll world options.files).2, ?_⟩
  simp only [run, runCheck, hsettings]
  refine ⟨hfiles, hstdout, ?_, hfailures, ?_⟩
  · rw [← hstderr]
    rfl
  · exact statusOf_eq_zero.trans beq_iff_eq

/-- With settings and an output directory, whatever reads scripts and settings, a run that converts
files stops at the first one that cannot be converted, and leaves the texts of the files before it;
a run that checks files tries all of them and changes nothing. -/
theorem run_boundary (options : Options) (world : World) (settings : Settings) (readers : Readers)
    (hsettings : Settings.load world.files options.config readers.settings = .ok settings) :
    (∀ start, makeOut world options.out = some start →
      ∃ done rest, StopsAfter (convertJob options settings readers) start options.files
        ((Command.convert options).run world readers) done rest) ∧
    ∃ failures, ChecksAll (checkJob options settings readers) world options.files
      ((Command.check options).run world readers) failures :=
  ⟨fun _ hstart => stopsAfter_run hsettings hstart, checksAll_run hsettings⟩

/-- A world with a script that is read, one that has no form and one behind it. -/
def draftWorld : World where
  files := .ofList [("a.js", "a"), ("b.js", "class A \x7b\x7d"), ("c.js", "c")]

/-- The options for the files of `draftWorld`. -/
def draftOptions : Options := { files := ["a.js", "b.js", "c.js"] }

/-- The first script is written, and neither of the others is; all three are checked. -/
theorem run_boundary_draft :
    Settings.load draftWorld.files draftOptions.config = .ok {} ∧
    makeOut draftWorld draftOptions.out = some draftWorld ∧
    (∃ done rest, StopsAfter (convertJob draftOptions {}) draftWorld draftOptions.files
      ((Command.convert draftOptions).run draftWorld) done rest) ∧
    (∃ failures, ChecksAll (checkJob draftOptions {}) draftWorld draftOptions.files
      ((Command.check draftOptions).run draftWorld) failures) ∧
    ((Command.convert draftOptions).run draftWorld).world.files.changesSince draftWorld.files =
      [("a.cljs", "a\n")] ∧
    ((Command.check draftOptions).run draftWorld).world.stdout = "ok: a.js\nok: c.js\n" := by
  have hsettings : Settings.load draftWorld.files draftOptions.config = .ok {} := by rfl
  obtain ⟨hconvert, hcheck⟩ := run_boundary draftOptions draftWorld {} {} hsettings
  exact ⟨hsettings, rfl, hconvert draftWorld rfl, hcheck, by decide +kernel, by decide +kernel⟩

end Command

end ScriptForms
