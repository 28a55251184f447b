import ScriptForms.Proofs.Command.Boundary

/-!
# Outputs that are overwritten

What is written for a file goes to a place that depends on its name without the extension only, so
two files of one run can be written to the same place. Such a run succeeds, and the text of the
earlier file is lost. This is the only loss as long as no file is written to one that is still to be
read.

* `Job.Renders`: the text of a file, as it is in a file system.
* `Job.Keeps`: the text of a file is found where it is written.
* `Job.SparesSources`: no file is written to one that is read later.
* `Command.run_keeps_iff`: when a successful run keeps the text of every file.
-/

namespace ScriptForms

namespace Job

variable {job : Job} {start : World} {file text : String} {files : Files}

/-- The text is what is rendered for the file, as the file is. -/
def Renders (job : Job) (files : Files) (file text : String) : Prop :=
  ∃ source, files.read file = .ok source ∧ job.render source = .ok text

theorem Renders.unique {other : String} (h : job.Renders files file text)
    (h' : job.Renders files file other) : text = other := by
  obtain ⟨source, hsource, htext⟩ := h
  obtain ⟨source', hsource', hother⟩ := h'
  obtain rfl : source = source' := Except.ok.inj (hsource.symm.trans hsource')
  exact Except.ok.inj (htext.symm.trans hother)

/-- What is rendered for the file, as it was at first, is found at the place of its output. -/
def Keeps (job : Job) (first last : Files) (file : String) : Prop :=
  ∃ place text, job.outputPlace? first file = some place ∧ job.Renders first file text ∧
    last.get? place = some text

/-- No file is written to the place of a file that is read later. -/
def SparesSources (job : Job) (files : Files) (names : List String) : Prop :=
  names.Pairwise fun earlier later => ∀ place, job.outputPlace? files earlier = some place →
    later = "-" ∨ files.place? later ≠ some place

/-- Files that are written to the same place have the same text. -/
def OutputsAgree (job : Job) (files : Files) (names : List String) : Prop :=
  ∀ file ∈ names, ∀ other ∈ names, ∀ place, job.outputPlace? files file = some place →
    job.outputPlace? files other = some place →
    ∀ text text', job.Renders files file text → job.Renders files other text' → text = text'

theorem ne_dash_of_outputPlace? {place : Place} (h : job.outputPlace? files file = some place) :
    file ≠ "-" := by
  rintro rfl
  rw [outputPlace?_eq_none_of (.inr rfl)] at h
  cases h

/-- A file that no earlier one is written to is rendered as it was at first. -/
theorem Converts.renders {front back : List String} (hall : job.ConvertsAll start front)
    (hspares : job.SparesSources start.files (front ++ file :: back)) (hfile : file ≠ "-")
    (h : job.Converts (job.after start front) file text) : job.Renders start.files file text := by
  obtain ⟨source, hsource, hrender⟩ := h.rendered
  rw [World.readSource, if_neg hfile, Files.read_eq_ok] at hsource
  obtain ⟨place, hlocate, hget⟩ := hsource
  rw [← hall.sameDirectories.locate_eq_ok] at hlocate
  refine ⟨source, Files.read_eq_ok.2 ⟨place, hlocate, ?_⟩, hrender⟩
  rw [← hget, hall.leaves.untouched place]
  intro earlier hearlier houtput
  have hpair := (List.pairwise_append.1 hspares).2.2 earlier hearlier file List.mem_cons_self
  rcases hpair place houtput with heq | hne
  · exact hfile heq
  · exact hne (Files.place?_eq_some.2 hlocate)

theorem exists_split_last {names : List String} {p : String → Prop} (h : ∃ name ∈ names, p name) :
    ∃ front last back, names = front ++ last :: back ∧ p last ∧ ∀ later ∈ back, ¬p later := by
  induction names with
  | nil => simp at h
  | cons name names ih =>
    by_cases hlater : ∃ later ∈ names, p later
    · obtain ⟨front, last, back, rfl, hlast, hback⟩ := ih hlater
      exact ⟨name :: front, last, back, rfl, hlast, hback⟩
    · refine ⟨[], name, names, rfl, ?_, fun later hm hp => hlater ⟨later, hm, hp⟩⟩
      obtain ⟨other, hm, hp⟩ := h
      rcases List.mem_cons.1 hm with rfl | hm
      · exact hp
      · exact absurd ⟨other, hm, hp⟩ hlater

/-- Where every file is converted and none is written to one that is read later, the text of every
file is kept iff files that are written to the same place have the same text. -/
theorem keeps_iff {names : List String} (hall : job.ConvertsAll start names)
    (hwrites : job.stdout = false) (hspares : job.SparesSources start.files names) :
    (∀ file ∈ names, file ≠ "-" → job.Keeps start.files (job.after start names).files file) ↔
      job.OutputsAgree start.files names := by
  constructor
  · intro hkeeps file hfile other hother place hplace hplace' text text' htext htext'
    have holds : ∀ name ∈ names, ∀ own, job.outputPlace? start.files name = some place →
        job.Renders start.files name own → (job.after start names).files.get? place = some own := by
      intro name hname own hown hrenders
      obtain ⟨there, found, hthere, hfound, hget⟩ :=
        hkeeps name hname (ne_dash_of_outputPlace? hown)
      obtain rfl : there = place := Option.some.inj (hthere.symm.trans hown)
      rw [hrenders.unique hfound, hget]
    exact Option.some.inj
      ((holds file hfile text hplace htext).symm.trans (holds other hother text' hplace' htext'))
  · intro hagree file hfile hdash
    obtain ⟨front, back, rfl⟩ := List.append_of_mem hfile
    obtain ⟨text, hconverts⟩ := hall front file back rfl
    have hrenders := hconverts.renders hall.front hspares hdash
    obtain ⟨place, hplace⟩ : ∃ place, job.outputPlace? start.files file = some place := by
      rcases hconverts.delivered with hprint | heq | ⟨place, hplace, -⟩
      · rw [hwrites] at hprint
        cases hprint
      · exact absurd heq hdash
      · rw [← outputPlace?_eq_of_sameDirectories hall.front.sameDirectories] at hplace
        exact ⟨place, hplace⟩
    -- The text at the place is that of the last file that is written there.
    obtain ⟨before, last, behind, hsplit, hlast, hbehind⟩ :=
      exists_split_last (p := fun name => job.outputPlace? start.files name = some place)
        ⟨file, hfile, hplace⟩
    obtain ⟨found, hfound, hget⟩ :=
      hall.leaves.written before last behind place hsplit hlast hbehind
    have hmem : last ∈ front ++ file :: back := by
      rw [hsplit]
      exact List.mem_append_right _ List.mem_cons_self
    have hlastRenders : job.Renders start.files last found := by
      rw [hsplit] at hall hspares
      exact hfound.renders hall.front hspares (ne_dash_of_outputPlace? hlast)
    refine ⟨place, text, hplace, hrenders, ?_⟩
    rw [hget, hagree file hfile last hmem place hplace hlast text found hrenders hlastRenders]

end Job

namespace Files

theorem texts_makeWalk {files made : Files} {place : Place} {steps : List String}
    (h : files.makeWalk place steps = .ok made) : made.texts = files.texts := by
  fun_induction makeWalk files place steps with
  | case1 => cases h; rfl
  | case2 files place component rest next hnext ih => exact ih h
  | case3 => cases h
  | case4 files place component rest next hnext hnone ih => exact ih h

end Files

namespace Command

variable {options : Options} {world start : World} {readers : Readers}

/-- The texts of all files are the same when the output directory has been made. -/
theorem texts_makeOut (h : makeOut world options.out = some start) :
    start.files.texts = world.files.texts := by
  unfold makeOut at h
  split at h
  · cases h
    rfl
  · split at h
    · rename_i made hmade
      cases h
      exact Files.texts_makeWalk hmade
    · cases h

theorem exists_start_of_status (h : ((Command.convert options).run world readers).status = 0) :
    ∃ settings start, Settings.load world.files options.config readers.settings = .ok settings ∧
      makeOut world options.out = some start := by
  simp only [run, runConvert] at h
  split at h
  · cases h
  · split at h
    · cases h
    · exact ⟨_, _, ‹_›, ‹_›⟩

/-- A successful run that writes no file to one that is read later keeps the text of every file iff
the files that are written to the same place have the same text: nothing else makes sure that a text
stays where it is written. -/
theorem run_keeps_iff (options : Options) (world : World) (readers : Readers)
    (hwrites : options.stdout = false)
    (hstatus : ((Command.convert options).run world readers).status = 0) :
    ∃ settings start, Settings.load world.files options.config readers.settings = .ok settings ∧
      makeOut world options.out = some start ∧ start.files.texts = world.files.texts ∧
      ((convertJob options settings readers).SparesSources start.files options.files →
        ((∀ file ∈ options.files, file ≠ "-" → (convertJob options settings readers).Keeps start.files
            ((Command.convert options).run world readers).world.files file) ↔
          (convertJob options settings readers).OutputsAgree start.files options.files)) := by
  obtain ⟨settings, start, hsettings, hstart⟩ := exists_start_of_status hstatus
  refine ⟨settings, start, hsettings, hstart, texts_makeOut hstart, fun hspares => ?_⟩
  obtain ⟨done, rest, hstops⟩ := stopsAfter_run hsettings hstart
  have hall : (convertJob options settings readers).ConvertsAll start options.files := by
    rw [hstops.split, hstops.status.1 hstatus, List.append_nil]
    exact hstops.converted
  rw [run_convert hsettings hstart]
  exact Job.keeps_iff hall hwrites hspares

/-- A world with scripts that differ in their names or only in their extensions. -/
def pagesWorld : World where
  files := .ofList [("a.js", "a"), ("b.js", "b"), ("a.jsx", "c")]

/-- The options for two scripts of `pagesWorld` with different names. -/
def pagesOptions : Options := { files := ["a.js", "b.js"], out := some "build" }

/-- `pagesWorld` with the output directory. -/
def pagesStart : World where
  files := { pagesWorld.files with directories := [["build"]] }

theorem sparesSources_pages :
    (convertJob pagesOptions {}).SparesSources pagesStart.files pagesOptions.files := by
  refine List.pairwise_pair.2 fun place hplace => .inr fun hsource => ?_
  have hother : pagesStart.files.place? "b.js" ≠
      (convertJob pagesOptions {}).outputPlace? pagesStart.files "a.js" := by decide
  exact hother (hsource.trans hplace.symm)

theorem outputsAgree_pages :
    (convertJob pagesOptions {}).OutputsAgree pagesStart.files pagesOptions.files := by
  intro file hfile other hother place hplace hplace' text text' htext htext'
  have hnames : ∀ file ∈ pagesOptions.files, ∀ other ∈ pagesOptions.files,
      (convertJob pagesOptions {}).outputPlace? pagesStart.files file =
        (convertJob pagesOptions {}).outputPlace? pagesStart.files other → file = other := by
    decide +kernel
  obtain rfl := hnames file hfile other hother (hplace.trans hplace'.symm)
  exact htext.unique htext'

/-- Scripts with different names are both kept. -/
theorem run_keeps_pages :
    ((Command.convert pagesOptions).run pagesWorld).status = 0 ∧
      (convertJob pagesOptions {}).SparesSources pagesStart.files pagesOptions.files ∧
      (convertJob pagesOptions {}).OutputsAgree pagesStart.files pagesOptions.files ∧
      ∀ file ∈ pagesOptions.files, file ≠ "-" → (convertJob pagesOptions {}).Keeps
        pagesStart.files ((Command.convert pagesOptions).run pagesWorld).world.files file := by
  have hstatus : ((Command.convert pagesOptions).run pagesWorld).status = 0 := by decide +kernel
  obtain ⟨settings, start, hsettings, hstart, -, hkeeps⟩ :=
    run_keeps_iff pagesOptions pagesWorld {} rfl hstatus
  obtain rfl : {} = settings := Except.ok.inj hsettings
  obtain rfl : pagesStart = start := Option.some.inj hstart
  exact ⟨hstatus, sparesSources_pages, outputsAgree_pages,
    (hkeeps sparesSources_pages).2 outputsAgree_pages⟩

/-- The options for two scripts of `pagesWorld` that differ in their extensions only. -/
def twinOptions : Options := { files := ["a.js", "a.jsx"] }

/-- Not every successful run keeps the text of every file: two scripts that differ in their
extensions only are written to the same place. -/
theorem run_twins_overwritten :
    ¬∀ (options : Options) (world : World), options.stdout = false →
      ((Command.convert options).run world).status = 0 →
      ∃ settings start, Settings.load world.files options.config = .ok settings ∧
        makeOut world options.out = some start ∧
        ∀ file ∈ options.files, file ≠ "-" → (convertJob options settings).Keeps start.files
          ((Command.convert options).run world).world.files file := by
  intro h
  have hrun : ((Command.convert twinOptions).run pagesWorld).status = 0 ∧
      ((Command.convert twinOptions).run pagesWorld).world.files.get? ["a.cljs"] =
        some "c\n" := by decide +kernel
  obtain ⟨settings, start, hsettings, hstart, hkeeps⟩ := h twinOptions pagesWorld rfl hrun.1
  obtain rfl : {} = settings := Except.ok.inj hsettings
  obtain rfl : pagesWorld = start := Option.some.inj hstart
  obtain ⟨place, text, hplace, ⟨source, hsource, hrender⟩, hget⟩ :=
    hkeeps "a.js" (by simp [twinOptions]) (by decide)
  obtain rfl : ["a.cljs"] = place := Option.some.inj hplace
  obtain rfl : "a" = source := Except.ok.inj hsource
  obtain rfl : "c\n" = text := Option.some.inj (hrun.2.symm.trans hget)
  have hown : ((convertJob twinOptions {}).render "a").toOption = some "a\n" := by decide +kernel
  rw [hrender] at hown
  exact absurd (Option.some.inj hown) (by decide)

end Command

end ScriptForms
