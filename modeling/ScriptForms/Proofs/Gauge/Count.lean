import ScriptForms.Proofs.Gauge.Convert

/-!
# Gauges that count

Three counts of a form, each with a gauge that compares it to a count of the tree: the mentions of
a name of the host environment, the occurrences of a name of the receiver that no list around them
binds, and the lists that bind the receiver. The order in which a form is counted does not matter,
so that the gauges also take `switch` statements.

* `Form.mentions`, `Form.mentionCount`: mentions of a name as one of the host environment.
* `Form.exposures`: the occurrences of a symbol outside of every list that binds it.
* `Form.captures`: the lists that bind the receiver.
* `Gauge.mentioning`, `Gauge.exposure`, `Gauge.capturing`: the gauges of these counts.
-/

namespace ScriptForms

namespace Form

/-! ### Mentioned names -/

section Mentions

/-- Whether a form mentions a name as one of the host environment. -/
def mentions (name : String) (form : Form) : Bool :=
  form.subforms.any fun m => m.symbol?.bind hosted? == some name

/-- The number of times that a form mentions a name. -/
def mentionCount (name : String) (form : Form) : Nat :=
  form.subforms.countP fun m => m.symbol?.bind hosted? == some name

variable {name : String}

theorem mentions_iff_mentionCount {form : Form} :
    form.mentions name ↔ form.mentionCount name ≠ 0 := by
  rw [mentions, mentionCount, ← Nat.pos_iff_ne_zero, List.countP_pos_iff, List.any_eq_true]

theorem mentionCount_eq (name : String) (form : Form) :
    form.mentionCount name = (form.parts.map (mentionCount name)).sum +
      if form.symbol?.bind hosted? == some name then 1 else 0 :=
  countP_subforms _ form

/-- A form that is no symbol mentions what its parts mention. -/
theorem mentionCount_parts {form : Form} (h : form.symbol? = none) :
    form.mentionCount name = (form.parts.map (mentionCount name)).sum := by
  rw [mentionCount_eq, h]
  rfl

theorem mentionCount_symbol (name text : String) :
    (symbol text).mentionCount name = if hosted? text = some name then 1 else 0 := by
  simp [mentionCount_eq, symbol?, parts]

theorem mentionCount_of_hosted?_eq_none {text : String} (h : hosted? text = none) :
    (symbol text).mentionCount name = 0 := by
  simp [mentionCount_symbol, h]

/-- A list that binds the receiver mentions what it holds. -/
theorem mentionCount_thisAs {text : String} (h : text ∈ [Rule.receiver, Rule.placeReceiver])
    (form : Form) : (thisAs text form).mentionCount name = form.mentionCount name := by
  have hhead : (symbol "this-as").mentionCount name = 0 :=
    mentionCount_of_hosted?_eq_none (by decide)
  have hbound : (symbol text).mentionCount name = 0 :=
    mentionCount_of_hosted?_eq_none (by rcases List.mem_pair.1 h with rfl | rfl <;> decide)
  rw [thisAs, call, mentionCount_parts rfl]
  simp [parts, hhead, hbound]

end Mentions

/-! ### Exposed symbols -/

/-- Whether a list of these forms binds the receiver to a name. -/
def bindsReceiver (name : String) : List Form → Bool
  | .symbol head :: .symbol bound :: _ => head = captureHead && bound = name
  | _ => false

mutual

/-- The number of times that a symbol occurs outside of every list `(this-as name ...)` that binds
the receiver to it. -/
def exposures (name : String) : Form → Nat
  | .symbol text => if text = name then 1 else 0
  | .list children => if bindsReceiver name children then 0 else exposuresAll name children
  | .vector children | .hashMap children | .program children => exposuresAll name children
  | .mapEntry key value => exposures name key + exposures name value
  | .tagged _ form => exposures name form
  | _ => 0

/-- The exposed occurrences of a symbol in several forms. -/
def exposuresAll (name : String) : List Form → Nat
  | [] => 0
  | form :: forms => exposures name form + exposuresAll name forms

end

theorem exposuresAll_eq (name : String) (forms : List Form) :
    exposuresAll name forms = (forms.map (exposures name)).sum := by
  induction forms with
  | nil => simp [exposuresAll]
  | cons form forms ih => simp [exposuresAll, ih]

theorem exposures_symbol (name text : String) :
    exposures name (.symbol text) = if text = name then 1 else 0 := by
  rw [exposures]

/-- A word that does not stand for the receiver exposes nothing. -/
theorem exposures_of_not_mem {name text : String}
    (h : name ∈ [Rule.receiver, Rule.placeReceiver]) (ht : text ∉ receiverWords) :
    exposures name (.symbol text) = 0 := by
  rw [exposures_symbol, if_neg]
  rintro rfl
  exact ht (List.mem_append_left [captureHead] h)

theorem exposures_compound {name : String} {form : Form} (hsymbol : form.symbol? = none)
    (hlist : ∀ children, form ≠ .list children) :
    exposures name form = (form.parts.map (exposures name)).sum := by
  cases form with
  | symbol text => cases hsymbol
  | list children => exact absurd rfl (hlist children)
  | vector children | hashMap children | program children =>
    simp [exposures, exposuresAll_eq, parts]
  | _ => simp [exposures, parts]

/-- A list that does not start with the word that binds the receiver. -/
theorem exposures_list {name : String} {forms : List Form}
    (h : ∀ form ∈ forms.head?, ∀ text ∈ form.symbol?, text ≠ captureHead) :
    exposures name (.list forms) = (forms.map (exposures name)).sum := by
  have hbinds : bindsReceiver name forms = false := by
    unfold bindsReceiver
    split
    · rename_i head bound rest
      have hne : head ≠ captureHead := h (.symbol head) rfl head rfl
      simp [hne]
    · rfl
  simp [exposures, hbinds, exposuresAll_eq]

/-- A list that binds the receiver exposes what it holds, but for the name that it binds. -/
theorem exposures_thisAs {name : String} (h : name ∈ [Rule.receiver, Rule.placeReceiver])
    (bound : String) (form : Form) :
    exposures name (.thisAs bound form) = if bound = name then 0 else exposures name form := by
  have hne : name ≠ captureHead := by rcases List.mem_pair.1 h with rfl | rfl <;> decide
  by_cases hbound : bound = name
  · simp [thisAs, call, exposures, bindsReceiver, captureHead, hbound]
  · have hhead : "this-as" ≠ name := hne.symm
    simp [thisAs, call, exposures, bindsReceiver, exposuresAll, hbound, hhead]

/-! ### Captures -/

/-- The number of lists that bind the receiver. -/
def captures (form : Form) : Nat := form.subforms.countP (·.head? == some captureHead)

theorem captures_eq (form : Form) :
    form.captures = (form.parts.map captures).sum +
      if form.head? == some captureHead then 1 else 0 :=
  countP_subforms _ form

theorem captures_compound {form : Form} (hsymbol : form.symbol? = none)
    (hlist : ∀ children, form ≠ .list children) :
    captures form = (form.parts.map captures).sum := by
  rw [captures_eq]
  cases form with
  | list children => exact absurd rfl (hlist children)
  | _ => simp [head?]

theorem captures_list {forms : List Form}
    (h : ∀ form ∈ forms.head?, ∀ text ∈ form.symbol?, text ≠ captureHead) :
    captures (.list forms) = (forms.map captures).sum := by
  rw [captures_eq]
  cases forms with
  | nil => rfl
  | cons form forms =>
    have hne : form.symbol? ≠ some captureHead := fun hsymbol => h form rfl _ hsymbol rfl
    simp [parts, head?, hne]

theorem captures_thisAs (bound : String) (form : Form) :
    captures (.thisAs bound form) = captures form + 1 := by
  have hsymbol : ∀ text, captures (.symbol text) = 0 := fun _ => rfl
  rw [captures_eq]
  simp [thisAs, call, parts, head?, symbol?, captureHead, hsymbol]

end Form

open Node Form

/-! ### Gauges -/

/-- An identifier of the language is not the word that binds the receiver. -/
theorem ne_captureHead_of_isWorded {text : String} (h : (Node.identifier text).isWorded) :
    text ≠ captureHead := by
  rintro rfl
  exact absurd h (by decide)

theorem isWorded_receiver {receiver : String} (h : receiver ∈ [Rule.receiver, Rule.placeReceiver]) :
    (Node.identifier receiver).isWorded := by
  rcases List.mem_pair.1 h with rfl | rfl <;> decide

/-- If no word of a node gives a name of the host environment, then no name that the node refers to
or binds does. -/
theorem Node.hosted?_ownName {node : Node} {text : String}
    (h : ∀ word ∈ node.words, hosted? word = none) (ht : text ∈ node.ownName?) :
    hosted? text = none := by
  refine h text ?_
  cases node <;> simp_all [ownName?, words]

/-- Counts the mentions of a name, and the places of a tree where the scope is asked about it and
knows it: there are some of the one iff there are some of the other. -/
def Gauge.mentioning (scope : Scope) (name : String) : Gauge Nat where
  scope := scope
  Admits := fun node =>
    node.isWorded ∧ (∀ word ∈ node.words, hosted? word = none) ∧ ¬node.hasRivalDefaults
  Heads := fun _ => True
  Rel := fun forms trees => forms = 0 ↔ trees = 0
  weight := mentionCount name
  name := fun _ => 0
  host := fun text => if text = name ∧ text ∉ reservedHosts then 1 else 0
  this := 0
  literal := fun _ => 0
  keyed := true
  zero := Iff.rfl
  add := by omega
  name_comm := fun _ _ => Nat.add_comm _ _
  host_comm := fun _ _ => Nat.add_comm _ _
  this_comm := fun _ => Nat.add_comm _ _
  reorder := fun _ => Nat.add_comm
  idle := id
  rival := fun hadmits hrival => absurd hadmits.2.2 (by simpa [hasRivalDefaults] using hrival)
  echo := by omega
  echo_name := by omega
  again := by omega
  access := fun _ _ _ => by simp [isWorded, words, hasRivalDefaults]
  receiver := by
    intro text ht
    have hadmits : (Node.identifier text).isWorded ∧
        (∀ word ∈ (Node.identifier text).words, hosted? word = none) ∧
        ¬(Node.identifier text).hasRivalDefaults := by
      rcases List.mem_pair.1 ht with rfl | rfl <;> decide
    have hreserved : text ∈ reservedHosts := by rcases List.mem_pair.1 ht with rfl | rfl <;> decide
    exact ⟨hadmits, if_neg fun hname => hname.2 hreserved⟩
  symbol := fun hadmits hname => by
    simp [mentionCount_of_hosted?_eq_none (hosted?_ownName hadmits.2.1 hname)]
  hosted := by
    intro text _ _
    rw [mentionCount_symbol, hosted?_hostName]
    by_cases hreserved : text ∈ reservedHosts <;> simp [hreserved]
  plain := fun hplain => mentionCount_of_hosted?_eq_none hplain.2
  word := fun hadmits hword =>
    ⟨mentionCount_of_hosted?_eq_none (isPlainWord_ruleWord hadmits.1 hword).2, trivial⟩
  head := fun _ => trivial
  identifier := fun _ => trivial
  written := fun l => by cases l <;> exact Iff.rfl
  key := fun _ _ => rfl
  compound := fun hsymbol _ _ => mentionCount_parts hsymbol
  list := fun _ => mentionCount_parts rfl
  capture := fun ht hcount hform => by
    rw [mentionCount_thisAs ht, hform]
    exact Eq.congr_left hcount

/-- Counts the exposed occurrences of a name of the receiver: none of them comes of nothing. -/
def Gauge.exposure (scope : Scope) (receiver : String)
    (h : receiver ∈ [Rule.receiver, Rule.placeReceiver]) : Gauge Nat where
  scope := scope
  Admits := fun node => node.isWorded
  Heads := fun text => text ≠ captureHead
  Rel := fun forms trees => trees = 0 → forms = 0
  weight := exposures receiver
  name := fun text => if text = receiver then 1 else 0
  host := fun _ => 0
  this := 0
  literal := fun _ => 0
  keyed := true
  zero := id
  add := by omega
  name_comm := fun _ _ => Nat.add_comm _ _
  host_comm := fun _ _ => Nat.add_comm _ _
  this_comm := fun _ => Nat.add_comm _ _
  reorder := fun _ => Nat.add_comm
  idle := by omega
  rival := by omega
  echo := by omega
  echo_name := by omega
  again := by omega
  access := fun _ _ _ => rfl
  receiver := fun ht => ⟨isWorded_receiver ht, rfl⟩
  symbol := fun {_ text} _ _ hzero => (exposures_symbol receiver text).trans hzero
  hosted := fun _ _ _ => exposures_of_not_mem h (hostName_not_mem_receiverWords _)
  plain := fun hplain => exposures_of_not_mem h hplain.1
  word := fun hadmits hword =>
    have hplain := isPlainWord_ruleWord hadmits hword
    ⟨exposures_of_not_mem h hplain.1, ne_captureHead_of_not_mem hplain.1⟩
  head := id
  identifier := ne_captureHead_of_isWorded
  written := fun l _ => by cases l <;> simp [Literal.form, exposures]
  key := fun _ _ => rfl
  compound := fun hsymbol _ hlist => exposures_compound hsymbol hlist
  list := exposures_list
  capture := by
    intro bound form inner outer _ hcount hform hzero
    rw [exposures_thisAs h]
    split
    · rfl
    · rename_i hne
      rw [hzero, if_neg hne] at hcount
      exact hform hcount

/-- Counts the lists that bind the receiver. The count of a script is kept. -/
def Gauge.capturing (scope : Scope) : Gauge Nat where
  scope := scope
  Admits := fun node => node.isWorded ∧ ¬node.isCompoundAssignment ∧ ¬node.hasRivalDefaults
  Heads := fun text => text ≠ captureHead
  Rel := Eq
  weight := captures
  name := fun _ => 0
  host := fun _ => 0
  this := 1
  literal := fun _ => 0
  keyed := true
  zero := rfl
  add := by omega
  name_comm := fun _ _ => Nat.add_comm _ _
  host_comm := fun _ _ => Nat.add_comm _ _
  this_comm := fun _ => Nat.add_comm _ _
  reorder := fun _ => Nat.add_comm
  idle := id
  rival := fun hadmits hrival => absurd hadmits.2.2 (by simpa [hasRivalDefaults] using hrival)
  echo := id
  echo_name := fun _ => id
  again := fun hadmits hne => absurd hadmits.2.1 (by simpa [isCompoundAssignment] using hne)
  access := fun _ _ _ => by simp [isWorded, isCompoundAssignment, hasRivalDefaults]
  receiver := fun ht =>
    ⟨⟨isWorded_receiver ht, by simp [isCompoundAssignment], by simp [hasRivalDefaults]⟩, rfl⟩
  symbol := fun _ _ => rfl
  hosted := fun _ _ => rfl
  plain := fun _ => rfl
  word := fun hadmits hword =>
    ⟨rfl, ne_captureHead_of_not_mem (isPlainWord_ruleWord hadmits.1 hword).1⟩
  head := id
  identifier := fun hadmits => ne_captureHead_of_isWorded hadmits.1
  written := fun l => by cases l <;> rfl
  key := fun _ _ => rfl
  compound := fun hsymbol _ hlist => captures_compound hsymbol hlist
  list := captures_list
  capture := by
    intro bound form inner outer _ hcount hform
    rw [captures_thisAs, hform]
    exact hcount

end ScriptForms
