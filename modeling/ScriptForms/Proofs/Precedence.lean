import Mathlib.Data.Set.Card
import ScriptForms.Command.Run

/-!
# Precedence among the names of the host environment

Which names belong to the host environment is decided in layers: the usual names, what the settings
add and leave out, what the command line adds and leaves out. All layers are changes of one set, one
name at a time, and the last change of a name decides about it. So the command line is stronger than
the settings, and within each of them what is left out is stronger than what is added.

* `NameSet.Change`, `NameSet.changeMany`: runs of changes of a set.
* `NameSet.contains_changeMany`: the last change of a name decides.
* `Options.changes`: the layers as one run of changes.
* `Options.IsHostName`: the precedence of the layers.
* `Options.nameSet_precedence`: the set that a command works with follows the precedence; the order
  and the number of entries of a layer change nothing.
-/

namespace ScriptForms

namespace NameSet

/-! ### Changes -/

/-- A change of a set by one name. -/
inductive Change where
  | insert (name : String)
  | erase (name : String)
  deriving DecidableEq

/-- The name that a change is about. -/
def Change.name : Change → String
  | .insert name | .erase name => name

/-- Whether the name of a change is in the set afterwards. -/
def Change.adds : Change → Bool
  | .insert _ => true
  | .erase _ => false

/-- The set after a change. -/
def change (set : NameSet) : Change → NameSet
  | .insert name => set.insert name
  | .erase name => set.erase name

/-- The set after several changes, one after the other. -/
def changeMany (set : NameSet) (changes : List Change) : NameSet := changes.foldl change set

/-- The last change of a name. -/
def lastChange? (name : String) (changes : List Change) : Option Change :=
  (changes.filter (·.name = name)).getLast?

theorem contains_change (set : NameSet) (change : Change) (name : String) :
    (set.change change).contains name =
      if change.name = name then change.adds else set.contains name := by
  cases change with
  | insert other =>
    by_cases h : other = name
    · simp [NameSet.change, Change.name, Change.adds, h]
    · simp [NameSet.change, Change.name, h, Ne.symm h]
  | erase other =>
    by_cases h : other = name
    · simp [NameSet.change, Change.name, Change.adds, h]
    · simp [NameSet.change, Change.name, h, Ne.symm h]

theorem changeMany_append (set : NameSet) (first second : List Change) :
    set.changeMany (first ++ second) = (set.changeMany first).changeMany second :=
  List.foldl_append

theorem lastChange?_append (name : String) (first second : List Change) :
    lastChange? name (first ++ second) = (lastChange? name second).or (lastChange? name first) := by
  rw [lastChange?, List.filter_append, List.getLast?_append]
  rfl

/-- The last change of a name decides whether the name is in the set; a name without changes stays
in the set, or stays out of it. -/
theorem contains_changeMany (set : NameSet) (changes : List Change) (name : String) :
    (set.changeMany changes).contains name =
      ((lastChange? name changes).map Change.adds).getD (set.contains name) := by
  induction changes using List.reverseRecOn with
  | nil => rfl
  | append_singleton changes change ih =>
    have hstep : set.changeMany (changes ++ [change]) = (set.changeMany changes).change change :=
      changeMany_append set changes [change]
    rw [hstep, contains_change, ih, lastChange?_append]
    by_cases h : change.name = name
    · simp [lastChange?, h]
    · simp [lastChange?, h]

/-! ### Lists of names -/

/-- Every name of a list is changed in the same way. -/
theorem lastChange?_map (make : String → Change) (hmake : ∀ name, (make name).name = name)
    (names : List String) (name : String) :
    lastChange? name (names.map make) = if name ∈ names then some (make name) else none := by
  induction names using List.reverseRecOn with
  | nil => rfl
  | append_singleton names last ih =>
    rw [List.map_append, lastChange?_append, ih]
    by_cases h : last = name
    · simp [lastChange?, hmake, h]
    · simp [lastChange?, hmake, h, Ne.symm h]

theorem insertMany_eq_changeMany (set : NameSet) (names : List String) :
    set.insertMany names = set.changeMany (names.map .insert) := by
  rw [changeMany, List.foldl_map]
  rfl

theorem eraseMany_eq_changeMany (set : NameSet) (names : List String) :
    set.eraseMany names = set.changeMany (names.map .erase) := by
  rw [changeMany, List.foldl_map]
  rfl

theorem contains_host (name : String) : host.contains name = decide (name ∈ hostNames) := by
  rw [host, ofList, insertMany_eq_changeMany, contains_changeMany,
    lastChange?_map .insert fun _ => rfl]
  by_cases h : name ∈ hostNames
  · simp [h, Change.adds]
  · simp only [h, ↓reduceIte, decide_false]
    rfl

/-- The size of a set is the number of its names. -/
theorem encard_contains (set : NameSet) : {name | set.contains name}.encard = set.size := by
  have hnames : {name | set.contains name} = (set.names.toFinset : Set String) := by
    ext name
    simp [contains]
  rw [hnames, Set.encard_coe_eq_coe_finsetCard, List.toFinset_card_of_nodup set.nodup]
  rfl

/-- Sets with the same names have the same size. -/
theorem size_eq_of_scope_eq {first second : NameSet} (h : first.scope = second.scope) :
    first.size = second.size := by
  have hcard : (first.size : ℕ∞) = second.size := by
    rw [← encard_contains, ← encard_contains]
    exact congrArg (fun scope : Scope => {name | scope name}.encard) h
  exact_mod_cast hcard

end NameSet

/-! ### Jobs -/

namespace Job

variable (job : Job) {globals : NameSet}

/-- A set of names is used as a scope only. -/
theorem render_congr (h : globals.scope = job.globals.scope) (source : String) :
    ({ job with globals := globals } : Job).render source = job.render source := by
  simp only [render, h]

theorem convertFiles_congr (h : globals.scope = job.globals.scope) (world : World)
    (files : List String) :
    ({ job with globals := globals } : Job).convertFiles world files =
      job.convertFiles world files := by
  have hfile : ∀ world file, ({ job with globals := globals } : Job).convertFile world file =
      job.convertFile world file := by
    intro world file
    simp only [convertFile, render_congr job h]
    rfl
  induction files generalizing world with
  | nil => rfl
  | cons file rest ih => simp only [convertFiles, hfile, ih]

theorem checkAll_congr (h : globals.scope = job.globals.scope) (world : World)
    (files : List String) :
    ({ job with globals := globals } : Job).checkAll world files = job.checkAll world files := by
  have hfile : ∀ world file, ({ job with globals := globals } : Job).checkOne world file =
      job.checkOne world file := by
    intro world file
    simp only [checkOne, render_congr job h]
    rfl
  induction files generalizing world with
  | nil => rfl
  | cons file rest ih => simp only [checkAll, hfile, ih]

end Job

/-! ### Layers -/

namespace Options

open NameSet

/-- What the settings and the command line change, in order. -/
def changes (options : Options) (settings : Settings) : List Change :=
  settings.globals.included.map .insert ++ settings.globals.excluded.map .erase ++
    options.globals.map .insert ++ options.noGlobals.map .erase

/-- The names that the changes start from. -/
def start (settings : Settings) : NameSet := if settings.globals.defaults then .host else .empty

theorem nameSet_eq_changeMany (options : Options) (settings : Settings) :
    options.nameSet settings = (start settings).changeMany (options.changes settings) := by
  rw [nameSet, Settings.nameSet, GlobalSettings.nameSet, eraseMany_eq_changeMany,
    insertMany_eq_changeMany, eraseMany_eq_changeMany, insertMany_eq_changeMany, changes,
    changeMany_append, changeMany_append, changeMany_append]
  rfl

theorem contains_start (settings : Settings) (name : String) :
    (start settings).contains name ↔ settings.globals.defaults ∧ name ∈ hostNames := by
  unfold start
  split
  · rename_i h
    simp [h, contains_host]
  · rename_i h
    simp [h, NameSet.contains, NameSet.empty]

/-- Whether a name belongs to the host environment: the command line decides before the settings,
what is left out before what is added, and the usual names come last. -/
def IsHostName (options : Options) (settings : Settings) (name : String) : Prop :=
  name ∉ options.noGlobals ∧
    (name ∈ options.globals ∨
      name ∉ settings.globals.excluded ∧
        (name ∈ settings.globals.included ∨ settings.globals.defaults ∧ name ∈ hostNames))

instance (options : Options) (settings : Settings) (name : String) :
    Decidable (options.IsHostName settings name) :=
  inferInstanceAs (Decidable (_ ∧ _))

theorem contains_nameSet_iff (options : Options) (settings : Settings) (name : String) :
    (options.nameSet settings).contains name ↔ options.IsHostName settings name := by
  have hinsert := fun names => lastChange?_map .insert (fun _ => rfl) names name
  have herase := fun names => lastChange?_map .erase (fun _ => rfl) names name
  rw [nameSet_eq_changeMany, contains_changeMany, changes, lastChange?_append, lastChange?_append,
    lastChange?_append, hinsert, hinsert, herase, herase, IsHostName, ← contains_start]
  -- From the last layer to the first: the first one of them that has the name decides.
  by_cases hout : name ∈ options.noGlobals
  · simp [hout, Change.adds]
  by_cases hadd : name ∈ options.globals
  · simp [hout, hadd, Change.adds]
  by_cases hexcluded : name ∈ settings.globals.excluded
  · simp [hout, hadd, hexcluded, Change.adds]
  by_cases hincluded : name ∈ settings.globals.included
  · simp [hout, hadd, hexcluded, hincluded, Change.adds]
  · simp [hout, hadd, hexcluded, hincluded]

/-- Two command lines with settings that have the same names in each of the four lists. -/
structure SameNames (options other : Options) (settings otherSettings : Settings) : Prop where
  defaults : settings.globals.defaults = otherSettings.globals.defaults
  included : ∀ name, name ∈ settings.globals.included ↔ name ∈ otherSettings.globals.included
  excluded : ∀ name, name ∈ settings.globals.excluded ↔ name ∈ otherSettings.globals.excluded
  globals : ∀ name, name ∈ options.globals ↔ name ∈ other.globals
  noGlobals : ∀ name, name ∈ options.noGlobals ↔ name ∈ other.noGlobals

theorem SameNames.scope_eq {options other : Options} {settings otherSettings : Settings}
    (h : SameNames options other settings otherSettings) :
    (other.nameSet otherSettings).scope = (options.nameSet settings).scope := by
  funext name
  refine Bool.eq_iff_iff.2 ?_
  show (other.nameSet otherSettings).contains name ↔ (options.nameSet settings).contains name
  rw [contains_nameSet_iff, contains_nameSet_iff, IsHostName, IsHostName, h.noGlobals, h.globals,
    h.excluded, h.included, h.defaults]

/-- The set that a command works with has the names that the precedence of the layers gives, and is
as large as their number. The order of the entries of a list and their repetitions have no effect,
neither on the set nor on what is done with it. In any run of changes of a set the last change of a
name decides about it. -/
theorem nameSet_precedence (options : Options) (settings : Settings) :
    (∀ name, (options.nameSet settings).scope name ↔ options.IsHostName settings name) ∧
    {name | options.IsHostName settings name}.encard = (options.nameSet settings).size ∧
    (∀ other otherSettings, SameNames options other settings otherSettings →
      (other.nameSet otherSettings).scope = (options.nameSet settings).scope ∧
      (other.nameSet otherSettings).size = (options.nameSet settings).size ∧
      ∀ (job : Job) (world : World) (files : List String),
        ({ job with globals := other.nameSet otherSettings } : Job).convertFiles world files =
          ({ job with globals := options.nameSet settings } : Job).convertFiles world files ∧
        ({ job with globals := other.nameSet otherSettings } : Job).checkAll world files =
          ({ job with globals := options.nameSet settings } : Job).checkAll world files) ∧
    ∀ (set : NameSet) (changes : List Change) (name : String),
      (set.changeMany changes).scope name =
        ((lastChange? name changes).map Change.adds).getD (set.scope name) := by
  refine ⟨contains_nameSet_iff options settings, ?_, fun other otherSettings h => ?_,
    contains_changeMany⟩
  · rw [← encard_contains]
    simp only [contains_nameSet_iff]
  · have hscope := h.scope_eq
    refine ⟨hscope, size_eq_of_scope_eq hscope, fun job world files => ⟨?_, ?_⟩⟩
    · exact Job.convertFiles_congr { job with globals := options.nameSet settings } hscope world
        files
    · exact Job.checkAll_congr { job with globals := options.nameSet settings } hscope world files

/-- Options with a name that is both added and left out. -/
def layeredOptions : Options := { globals := ["name", "React"], noGlobals := ["name"] }

/-- Settings with a name that is both added and left out. -/
def layeredSettings : Settings where
  globals := { included := ["$", "jQuery"], excluded := ["jQuery", "alert"] }

/-- The lists of `layeredOptions` in another order, with repetitions. -/
def shuffledOptions : Options := { globals := ["React", "name", "React"], noGlobals := ["name"] }

/-- The lists of `layeredSettings` in another order, with repetitions. -/
def shuffledSettings : Settings where
  globals := { included := ["jQuery", "$"], excluded := ["alert", "jQuery", "alert"] }

/-- Of the names of four overlapping lists those are added that no stronger list leaves out,
whatever the order of the lists. -/
theorem nameSet_precedence_shuffled :
    SameNames layeredOptions shuffledOptions layeredSettings shuffledSettings ∧
    (shuffledOptions.nameSet shuffledSettings).scope =
      (layeredOptions.nameSet layeredSettings).scope ∧
    (∀ name ∈ ["React", "$", "console"], (layeredOptions.nameSet layeredSettings).scope name) ∧
    ∀ name ∈ ["name", "jQuery", "alert"], ¬(layeredOptions.nameSet layeredSettings).scope name := by
  have hsame : SameNames layeredOptions shuffledOptions layeredSettings shuffledSettings := by
    refine ⟨rfl, fun name => ?_, fun name => ?_, fun name => ?_, fun name => Iff.rfl⟩
    all_goals grind [layeredOptions, shuffledOptions, layeredSettings, shuffledSettings]
  obtain ⟨hnames, -, hother, -⟩ := nameSet_precedence layeredOptions layeredSettings
  refine ⟨hsame, (hother shuffledOptions shuffledSettings hsame).1, ?_, ?_⟩
  · simp only [hnames]
    decide
  · simp only [hnames]
    decide

end Options

end ScriptForms
