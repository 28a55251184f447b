import ScriptForms.Command.Files
import ScriptForms.Proofs.Outcome
import Mathlib.Data.List.Infix

/-!
# Places that writing leaves alone

Writing a file changes the text at one place. The directories stay what they are, since a path leads
through directories only; so every path leads to the same place before and after.

* `Files.SameDirectories`: two file systems with the same directories.
* `Files.get?_set_of_ne`: the texts at other places.
* `Files.Open`: a place with directories all the way to it.
* `Files.sameDirectories_set`: the directories after a text is written where a path leads to.
-/

namespace ScriptForms.Files

variable {files other : Files} {place : Place}

/-! ### Texts -/

theorem lookup_replace_of_ne {texts : List (Place × String)} {place other : Place} (text : String)
    (h : other ≠ place) :
    (texts.map fun entry => if entry.1 = place then (place, text) else entry).lookup other =
      texts.lookup other := by
  induction texts with
  | nil => rfl
  | cons entry texts ih =>
    obtain ⟨own, content⟩ := entry
    by_cases e : own = place
    · have hne : (other == place) = false := beq_false_of_ne h
      simp only [List.map_cons, e, if_true, List.lookup_cons, hne]
      exact ih
    · simp only [List.map_cons, e, if_false, List.lookup_cons, ih]

theorem get?_set_of_ne (files : Files) {place other : Place} (text : String) (h : other ≠ place) :
    (files.set place text).get? other = files.get? other := by
  unfold set get?
  split
  · exact lookup_replace_of_ne text h
  · have hne : (other == place) = false := beq_false_of_ne h
    simp [List.lookup_append, List.lookup_cons, hne]

@[simp] theorem directories_set (files : Files) (place : Place) (text : String) :
    (files.set place text).directories = files.directories := by
  unfold set
  split <;> rfl

theorem read_eq_ok {path text : String} :
    files.read path = .ok text ↔
      ∃ place, files.locate path = .ok place ∧ files.get? place = some text := by
  rw [read, bind_eq_ok]
  refine exists_congr fun place => and_congr_right fun _ => ?_
  cases files.get? place with
  | none => simp [throw, throwThe, MonadExceptOf.throw]
  | some own => simp [pure, Except.pure]

/-! ### Directories on the way -/

/-- The file systems have the same directories. -/
def SameDirectories (files other : Files) : Prop :=
  ∀ place, files.isDirectory place = other.isDirectory place

theorem SameDirectories.symm (h : SameDirectories files other) : SameDirectories other files :=
  fun place => (h place).symm

theorem SameDirectories.trans {third : Files} (h : SameDirectories files other)
    (h' : SameDirectories other third) : SameDirectories files third :=
  fun place => (h place).trans (h' place)

/-- With the same directories, components that lead somewhere lead to the same place. -/
theorem SameDirectories.walk_of_ok (h : SameDirectories files other) {result : Place}
    {steps : List String} (hwalk : files.walk place steps = .ok result) :
    other.walk place steps = .ok result := by
  fun_induction walk files place steps with
  | case1 place => exact hwalk
  | case2 place component => exact hwalk
  | case3 place component rest hrest next hnext ih =>
    rw [walk, if_pos]
    · exact ih hwalk
    · rw [← h]
      exact hnext
    · exact hrest
  | case4 | case5 => cases hwalk

theorem SameDirectories.locate_eq_ok (h : SameDirectories files other) {path : String} :
    files.locate path = .ok place ↔ other.locate path = .ok place := by
  unfold locate
  split
  · rfl
  · exact ⟨h.walk_of_ok, h.symm.walk_of_ok⟩

/-- The place is a directory, and so is every place on the way to it. -/
def Open (files : Files) (place : Place) : Prop :=
  ∀ front, front <+: place → files.isDirectory front

/-- One step further, only the last place is new. -/
theorem isPrefix_of_isPrefix_enter {front : Place} {component : String}
    (h : front <+: enter place component) (hne : front ≠ enter place component) :
    front <+: place := by
  have happend : ∀ name, front <+: place ++ [name] → front ≠ place ++ [name] → front <+: place := by
    intro name hname hlast
    rcases List.prefix_concat_iff.1 hname with heq | hfront
    · exact absurd heq hlast
    · exact hfront
  unfold enter at h hne
  split at h
  · exact h
  · exact h
  · split at h
    · exact happend ".." h (by simp_all)
    · exact happend ".." h (by simp_all)
    · exact h
    · exact h.trans (List.dropLast_prefix place)
  · exact happend _ h (by simp_all)

/-- Where a path leads to, everything on the way is a directory. -/
theorem Open.walk (hopen : files.Open place) {steps : List String} {result : Place}
    (h : files.walk place steps = .ok result) :
    ∀ front, front <+: result → front ≠ result → files.isDirectory front := by
  fun_induction Files.walk files place steps with
  | case1 place =>
    obtain rfl : place = result := by simpa using h
    exact fun front hfront _ => hopen front hfront
  | case2 place component =>
    obtain rfl : enter place component = result := by simpa using h
    exact fun front hfront hne => hopen front (isPrefix_of_isPrefix_enter hfront hne)
  | case3 place component rest hrest next hnext ih =>
    refine ih (fun front hfront => ?_) h
    by_cases heq : front = next
    · rw [heq]
      exact hnext
    · exact hopen front (isPrefix_of_isPrefix_enter hfront heq)
  | case4 | case5 => cases h

/-- The working directory and the top are open. -/
theorem open_stepsOf (files : Files) (path : String) : files.Open (stepsOf path).1 := by
  have houter : ∀ front : Place, isOuter front → files.isDirectory front := fun front h => by
    simp [isDirectory, h]
  intro front hfront
  apply houter
  unfold stepsOf at hfront
  split at hfront
  · rcases List.prefix_concat_iff.1 (show front <+: [] ++ ["/"] from hfront) with rfl | hnil
    · rfl
    · rw [List.prefix_nil.1 hnil]
      rfl
  · rw [List.prefix_nil.1 hfront]
    rfl

theorem isDirectory_of_locate {path : String} (h : files.locate path = .ok place) :
    ∀ front, front <+: place → front ≠ place → files.isDirectory front := by
  unfold locate at h
  split at h
  · cases h
  · exact (open_stepsOf files path).walk h

/-! ### Writing -/

/-- Writing a text where a path leads to makes no new directory. -/
theorem sameDirectories_set {path : String} (h : files.locate path = .ok place) (text : String) :
    SameDirectories files (files.set place text) := by
  intro front
  unfold set
  split
  · -- Replacing a text keeps the places of all files.
    have hany : (files.texts.map fun entry => if entry.1 = place then (place, text) else entry).any
        (fun entry => front.isPrefixOf entry.1 && front ≠ entry.1) =
          files.texts.any fun entry => front.isPrefixOf entry.1 && front ≠ entry.1 := by
      rw [List.any_map]
      congr 1
      funext entry
      by_cases e : entry.1 = place <;> simp [e]
    simp only [isDirectory, hany]
  · -- A new file can only make directories of the places on the way to it.
    have hway : (front.isPrefixOf place && front ≠ place) = true → files.isDirectory front := by
      intro hfront
      rw [Bool.and_eq_true, decide_eq_true_iff, List.isPrefixOf_iff_prefix] at hfront
      exact isDirectory_of_locate h front hfront.1 hfront.2
    simp only [isDirectory, List.any_append, List.any_cons, List.any_nil, Bool.or_false] at hway ⊢
    cases hnew : front.isPrefixOf place && decide (front ≠ place) with
    | false => rw [Bool.or_false]
    | true => rw [Bool.or_true, Bool.or_true, hway hnew]

theorem write_eq_ok {path text : String} :
    files.write path text = .ok other ↔
      ∃ place, files.locate path = .ok place ∧ ¬files.isDirectory place ∧
        files.set place text = other := by
  rw [write, bind_eq_ok]
  refine exists_congr fun place => and_congr_right fun _ => ?_
  by_cases hdirectory : files.isDirectory place
  · simp [hdirectory, throw, throwThe, MonadExceptOf.throw, bind, Except.bind]
  · simp [hdirectory, pure, Except.pure]

end ScriptForms.Files
