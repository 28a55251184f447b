import Mathlib.Data.List.Forall2

/-!
# Outcomes of computations that may fail

Three views of computations in `Except`, each with its rules for sequences and lists:

* `Succeeds x`: the computation has a result. A sequence succeeds iff its parts do.
* `Yields x p`: every result of the computation has the property `p`.
* `Agree r x y`: two computations fail for the same reason, or have results that `r` relates.
-/

namespace ScriptForms

variable {ε α β γ δ : Type}

/-! ### Success -/

/-- The computation has a result. -/
def Succeeds (x : Except ε α) : Prop := ∃ a, x = .ok a

@[simp] theorem exists_eq_ok_iff {x : Except ε α} : (∃ a, x = .ok a) ↔ Succeeds x := Iff.rfl

@[simp] theorem succeeds_ok (a : α) : Succeeds (.ok a : Except ε α) := ⟨a, rfl⟩

@[simp] theorem succeeds_pure (a : α) : Succeeds (pure a : Except ε α) := ⟨a, rfl⟩

@[simp] theorem not_succeeds_error (e : ε) : ¬Succeeds (.error e : Except ε α) := by
  rintro ⟨a, h⟩
  cases h

@[simp] theorem ok_bind (a : α) (f : α → Except ε β) : (.ok a >>= f : Except ε β) = f a := rfl

theorem bind_eq_ok {x : Except ε α} {f : α → Except ε β} {b : β} :
    (x >>= f) = .ok b ↔ ∃ a, x = .ok a ∧ f a = .ok b := by
  cases x <;> simp [bind, Except.bind]

theorem map_eq_ok {x : Except ε α} {f : α → β} {b : β} :
    f <$> x = .ok b ↔ ∃ a, x = .ok a ∧ f a = b := by
  cases x <;> simp [Functor.map, Except.map]

theorem bind_eq_error {x : Except ε α} {f : α → Except ε β} {e : ε} :
    (x >>= f) = .error e ↔ x = .error e ∨ ∃ a, x = .ok a ∧ f a = .error e := by
  cases x <;> simp [bind, Except.bind]

@[simp] theorem succeeds_bind {x : Except ε α} {f : α → Except ε β} :
    Succeeds (x >>= f) ↔ ∃ a, x = .ok a ∧ Succeeds (f a) := by
  simp only [Succeeds, bind_eq_ok]
  constructor
  · rintro ⟨b, a, ha, hb⟩
    exact ⟨a, ha, b, hb⟩
  · rintro ⟨a, ha, b, hb⟩
    exact ⟨b, a, ha, hb⟩

@[simp] theorem succeeds_map {x : Except ε α} {f : α → β} : Succeeds (f <$> x) ↔ Succeeds x := by
  cases x <;> simp [Functor.map, Except.map]

/-- A sequence that starts with a check. -/
theorem succeeds_check {c : Prop} [Decidable c] {e : ε} {f : α → Except ε β} {x : Except ε β} :
    Succeeds (if c then throw e >>= f else x) ↔ ¬c ∧ Succeeds x := by
  by_cases h : c
  · rw [if_pos h]
    exact iff_of_false (not_succeeds_error e) fun hx => hx.1 h
  · rw [if_neg h]
    exact (and_iff_right h).symm

/-- A sequence whose second part succeeds under a condition that the first result has no part in. -/
theorem succeeds_bind_iff {x : Except ε α} {f : α → Except ε β} {p : Prop}
    (h : ∀ a, x = .ok a → (Succeeds (f a) ↔ p)) : Succeeds (x >>= f) ↔ Succeeds x ∧ p := by
  rw [succeeds_bind]
  constructor
  · rintro ⟨a, ha, hf⟩
    exact ⟨⟨a, ha⟩, (h a ha).1 hf⟩
  · rintro ⟨⟨a, ha⟩, hp⟩
    exact ⟨a, ha, (h a ha).2 hp⟩

@[simp] theorem succeeds_mapM {f : α → Except ε β} {l : List α} :
    Succeeds (l.mapM f) ↔ ∀ a ∈ l, Succeeds (f a) := by
  induction l with
  | nil => simp
  | cons a l ih => simp [ih]

theorem succeeds_foldlM_iff {f : β → α → Except ε β} {p : α → Prop} {l : List α}
    (h : ∀ a ∈ l, ∀ b, Succeeds (f b a) ↔ p a) (b : β) :
    Succeeds (l.foldlM f b) ↔ ∀ a ∈ l, p a := by
  induction l generalizing b with
  | nil => simp
  | cons a l ih =>
    rw [List.foldlM_cons, succeeds_bind_iff fun c _ => ih (fun a ha => h a (by simp [ha])) c,
      h a (by simp), List.forall_mem_cons]

/-! ### The same computations -/

theorem mapM_congr {f g : α → Except ε β} {l : List α} (h : ∀ a ∈ l, f a = g a) :
    l.mapM f = l.mapM g := by
  induction l with
  | nil => rfl
  | cons a l ih =>
    rw [List.forall_mem_cons] at h
    rw [List.mapM_cons, List.mapM_cons, h.1, ih h.2]

theorem optionMapM_congr {f g : α → Except ε β} {o : Option α} (h : ∀ a ∈ o, f a = g a) :
    o.mapM f = o.mapM g := by
  cases o with
  | none => rfl
  | some a => rw [Option.mapM_some, Option.mapM_some, h a rfl]

theorem foldlM_congr {f g : β → α → Except ε β} {l : List α} (h : ∀ a ∈ l, ∀ b, f b a = g b a)
    {b : β} : l.foldlM f b = l.foldlM g b := by
  induction l generalizing b with
  | nil => rfl
  | cons a l ih =>
    rw [List.forall_mem_cons] at h
    rw [List.foldlM_cons, List.foldlM_cons, h.1, bind_congr fun _ => ih h.2]

/-! ### Results -/

/-- Every result of the computation has the property. -/
def Yields (x : Except ε α) (p : α → Prop) : Prop := ∀ a, x = .ok a → p a

theorem yields_ok {p : α → Prop} {a : α} (h : p a) : Yields (.ok a : Except ε α) p := by
  rintro b hb
  cases hb
  exact h

theorem yields_pure {p : α → Prop} {a : α} (h : p a) : Yields (pure a : Except ε α) p :=
  yields_ok h

theorem yields_error {p : α → Prop} (e : ε) : Yields (.error e : Except ε α) p := by
  rintro b hb
  cases hb

theorem yields_bind {x : Except ε α} {f : α → Except ε β} {q : α → Prop} {p : β → Prop}
    (hx : Yields x q) (hf : ∀ a, q a → Yields (f a) p) : Yields (x >>= f) p := by
  intro b hb
  obtain ⟨a, ha, hb⟩ := bind_eq_ok.1 hb
  exact hf a (hx a ha) b hb

/-- A sequence that starts with a check. -/
theorem yields_check {c : Prop} [Decidable c] {e : ε} {f : α → Except ε β} {x : Except ε β}
    {p : β → Prop} (h : Yields x p) : Yields (if c then throw e >>= f else x) p := by
  split
  · exact yields_error e
  · exact h

theorem Yields.imp {x : Except ε α} {p q : α → Prop} (h : Yields x p) (hpq : ∀ a, p a → q a) :
    Yields x q :=
  fun a ha => hpq a (h a ha)

theorem Yields.and {x : Except ε α} {p q : α → Prop} (hp : Yields x p) (hq : Yields x q) :
    Yields x fun a => p a ∧ q a :=
  fun a ha => ⟨hp a ha, hq a ha⟩

theorem yields_mapM {f : α → Except ε β} {p : β → Prop} {l : List α}
    (h : ∀ a ∈ l, Yields (f a) p) : Yields (l.mapM f) fun bs => ∀ b ∈ bs, p b := by
  induction l with
  | nil => exact yields_pure (by simp)
  | cons a l ih =>
    rw [List.mapM_cons]
    refine yields_bind (h a (by simp)) fun b hb => ?_
    refine yields_bind (ih fun a ha => h a (by simp [ha])) fun bs hbs => ?_
    exact yields_pure (List.forall_mem_cons.2 ⟨hb, hbs⟩)

theorem yields_optionMapM {f : α → Except ε β} {p : β → Prop} {o : Option α}
    (h : ∀ a ∈ o, Yields (f a) p) : Yields (o.mapM f) fun ob => ∀ b ∈ ob.toList, p b := by
  cases o with
  | none => exact yields_pure (by simp)
  | some a =>
    intro ob hob
    obtain ⟨b, hb, rfl⟩ := map_eq_ok.1 hob
    simpa using h a rfl b hb

theorem yields_mapM_length (f : α → Except ε β) (l : List α) :
    Yields (l.mapM f) fun bs => bs.length = l.length := by
  induction l with
  | nil => exact yields_pure rfl
  | cons a l ih =>
    rw [List.mapM_cons]
    refine yields_bind (fun b _ => trivial) fun b _ => yields_bind ih fun bs hbs => ?_
    exact yields_pure (congrArg (· + 1) hbs)

/-- The items of a list are converted where they stand. -/
theorem getElem?_mapM {f : α → Except ε β} {l : List α} {l' : List β}
    (h : l.mapM f = .ok l') (i : Nat) : l[i]?.mapM f = .ok l'[i]? := by
  induction l generalizing l' i with
  | nil =>
    obtain rfl := Except.ok.inj h
    rfl
  | cons a l ih =>
    rw [List.mapM_cons, bind_eq_ok] at h
    obtain ⟨b, hb, h⟩ := h
    obtain ⟨bs, hbs, h⟩ := bind_eq_ok.1 h
    obtain rfl := Except.ok.inj h
    cases i with
    | zero =>
      show (do let b ← f a; return some b) = _
      rw [hb]
      rfl
    | succ i => exact ih hbs i

/-- The results of a list are those of its items, in order. -/
theorem mapM_eq_ok_iff {f : α → Except ε β} {l : List α} {l' : List β} :
    l.mapM f = .ok l' ↔ List.Forall₂ (fun a b => f a = .ok b) l l' := by
  induction l generalizing l' with
  | nil =>
    rw [List.mapM_nil, List.forall₂_nil_left_iff]
    exact ⟨fun h => (Except.ok.inj h).symm, fun h => h ▸ rfl⟩
  | cons a l ih =>
    rw [List.mapM_cons, bind_eq_ok, List.forall₂_cons_left_iff]
    refine exists_congr fun b => ?_
    rw [bind_eq_ok]
    constructor
    · rintro ⟨hb, bs, hbs, h⟩
      exact ⟨bs, hb, ih.1 hbs, (Except.ok.inj h).symm⟩
    · rintro ⟨bs, hb, hbs, rfl⟩
      exact ⟨hb, bs, ih.2 hbs, rfl⟩

theorem yields_foldlM {f : β → α → Except ε β} {p : β → Prop} {l : List α}
    (h : ∀ a ∈ l, ∀ b, p b → Yields (f b a) p) {b : β} (hb : p b) : Yields (l.foldlM f b) p := by
  induction l generalizing b with
  | nil => exact yields_pure hb
  | cons a l ih =>
    rw [List.foldlM_cons]
    exact yields_bind (h a (by simp) b hb) fun c hc => ih (fun a ha => h a (by simp [ha])) hc

/-- What is read off the results in order is what is read off the inputs in order. -/
theorem yields_mapM_flatMap {f : α → Except ε β} {g : β → List γ} {h : α → List γ} {l : List α}
    (hf : ∀ a ∈ l, Yields (f a) fun b => g b = h a) :
    Yields (l.mapM f) fun bs => bs.flatMap g = l.flatMap h := by
  induction l with
  | nil => exact yields_pure rfl
  | cons a l ih =>
    rw [List.forall_mem_cons] at hf
    rw [List.mapM_cons]
    refine yields_bind hf.1 fun b hb => yields_bind (ih hf.2) fun bs hbs => yields_pure ?_
    rw [List.flatMap_cons, List.flatMap_cons, hb, hbs]

/-! ### Two computations -/

/-- The computations fail for the same reason, or have related results. -/
inductive Agree (r : α → β → Prop) : Except ε α → Except ε β → Prop
  | ok {a : α} {b : β} (h : r a b) : Agree r (.ok a) (.ok b)
  | error (e : ε) : Agree r (.error e) (.error e)

theorem agree_pure {r : α → β → Prop} {a : α} {b : β} (h : r a b) :
    Agree r (pure a : Except ε α) (pure b) :=
  .ok h

theorem agree_bind {r : α → β → Prop} {s : γ → δ → Prop} {x : Except ε α} {y : Except ε β}
    {f : α → Except ε γ} {g : β → Except ε δ} (hx : Agree r x y)
    (hf : ∀ a b, r a b → Agree s (f a) (g b)) : Agree s (x >>= f) (y >>= g) := by
  cases hx with
  | ok h => exact hf _ _ h
  | error e => exact .error e

theorem Agree.imp {r s : α → β → Prop} {x : Except ε α} {y : Except ε β} (h : Agree r x y)
    (hrs : ∀ a b, r a b → s a b) : Agree s x y := by
  cases h with
  | ok h => exact .ok (hrs _ _ h)
  | error e => exact .error e

/-- The result of the computation on the left may be wrapped. -/
theorem Agree.wrap {r : α → β → Prop} {s : γ → β → Prop} {x : Except ε α} {y : Except ε β}
    {f : α → γ} (h : Agree r x y) (hs : ∀ a b, r a b → s (f a) b) :
    Agree s (x >>= fun a => pure (f a)) y := by
  cases h with
  | ok h => exact .ok (hs _ _ h)
  | error e => exact .error e

/-- Two computations that agree with a third one agree with each other. -/
theorem Agree.join {r : α → γ → Prop} {s : β → γ → Prop} {x : Except ε α}
    {y : Except ε β} {z : Except ε γ} (hx : Agree r x z) (hy : Agree s y z) :
    Agree (fun a b => ∃ c, z = .ok c ∧ r a c ∧ s b c) x y := by
  cases hx with
  | ok ha =>
    cases hy with
    | ok hb => exact .ok ⟨_, rfl, ha, hb⟩
  | error fault =>
    cases hy with
    | error => exact .error fault

theorem Agree.trans {r : α → β → Prop} {s : β → γ → Prop} {x : Except ε α}
    {y : Except ε β} {z : Except ε γ} (hx : Agree r x y) (hy : Agree s y z) :
    Agree (fun a c => ∃ b, r a b ∧ s b c) x z := by
  cases hx with
  | ok ha =>
    cases hy with
    | ok hb => exact .ok ⟨_, ha, hb⟩
  | error fault =>
    cases hy with
    | error => exact .error fault

theorem Agree.exists_of_ok {r : α → β → Prop} {x : Except ε α} {b : β}
    (h : Agree r x (.ok b)) : ∃ a, x = .ok a ∧ r a b := by
  cases h with
  | ok h => exact ⟨_, rfl, h⟩

theorem Agree.map_right {r : α → β → Prop} {s : α → γ → Prop} {x : Except ε α}
    {y : Except ε β} {f : β → γ} (h : Agree r x y) (hf : ∀ a b, r a b → s a (f b)) :
    Agree s x (f <$> y) := by
  cases h with
  | ok h => exact .ok (hf _ _ h)
  | error fault => exact .error fault

theorem Agree.of_ok {r : α → β → Prop} {a : α} {b : β}
    (h : Agree r (.ok a : Except ε α) (.ok b)) : r a b := by
  cases h with
  | ok h => exact h

theorem Agree.eq {x y : Except ε α} (h : Agree Eq x y) : x = y := by
  cases h with
  | ok h => rw [h]
  | error e => rfl

/-- Sequences that start with the same check. -/
theorem agree_check {c : Prop} [Decidable c] {e : ε} {f : α → Except ε γ} {g : β → Except ε δ}
    {s : γ → δ → Prop} {x : Except ε γ} {y : Except ε δ} (h : Agree s x y) :
    Agree s (if c then throw e >>= f else x) (if c then throw e >>= g else y) := by
  split
  · exact .error e
  · exact h

theorem agree_mapM {r : β → γ → Prop} {f : α → Except ε β} {g : α → Except ε γ} {l : List α}
    (h : ∀ a ∈ l, Agree r (f a) (g a)) : Agree (List.Forall₂ r) (l.mapM f) (l.mapM g) := by
  induction l with
  | nil => exact agree_pure .nil
  | cons a l ih =>
    rw [List.forall_mem_cons] at h
    rw [List.mapM_cons, List.mapM_cons]
    refine agree_bind h.1 fun b c hbc => agree_bind (ih h.2) fun bs cs hbcs => ?_
    exact agree_pure (.cons hbc hbcs)

theorem agree_foldlM {r : β → γ → Prop} {f : β → α → Except ε β} {g : γ → α → Except ε γ}
    {l : List α} (h : ∀ a ∈ l, ∀ b c, r b c → Agree r (f b a) (g c a)) {b : β} {c : γ}
    (hbc : r b c) : Agree r (l.foldlM f b) (l.foldlM g c) := by
  induction l generalizing b c with
  | nil => exact agree_pure hbc
  | cons a l ih =>
    rw [List.forall_mem_cons] at h
    rw [List.foldlM_cons, List.foldlM_cons]
    exact agree_bind (h.1 b c hbc) fun b c hbc => ih h.2 hbc

end ScriptForms
