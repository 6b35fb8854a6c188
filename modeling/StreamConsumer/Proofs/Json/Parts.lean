import StreamConsumer.Proofs.Json.RoundTrip
import StreamConsumer.Proofs.Outcome

/-!
# What a value is written from

The parts of a value are its keys and whatever in it is no container, in the order in which they are
written (`Value.parts`). In the lenient dialect a part has a notation if it is a constant, a number, a
text or a policy, an integer only up to 4300 digits. **Main statement** (`writeAt_tells`): the parts
decide whether a value is written as its members come, and its first part without a notation decides
whether an integer of too many digits is reported. The strict dialect, which has integers of 64 bits,
reports no such thing (`writeAt_strict_ne_digits`).
-/

namespace StreamConsumer

namespace Value

/-- Whether a value is a list or a dictionary. -/
def isContainer : Value → Bool
  | list _ => true
  | dict _ => true
  | _ => false

section Induction

variable {motive : Value → Prop}

mutual

/-- What holds of everything but containers, of a list if it holds of its items and of a dictionary if
it holds of its values, holds of every value. -/
theorem containerInduction (leaf : ∀ v, v.isContainer = false → motive v)
    (list : ∀ items, (∀ v ∈ items, motive v) → motive (.list items))
    (dict : ∀ ms : Members, (∀ m ∈ ms, motive m.2) → motive (.dict ms)) : ∀ v, motive v
  | .list items => list items (containerInduction_items leaf list dict items)
  | .dict ms => dict ms (containerInduction_members leaf list dict ms)
  | .null => leaf _ rfl
  | .bool _ => leaf _ rfl
  | .int _ => leaf _ rfl
  | .float _ => leaf _ rfl
  | .nan _ => leaf _ rfl
  | .text _ => leaf _ rfl
  | .policy _ => leaf _ rfl
  | .bytes _ _ => leaf _ rfl
  | .dateTime _ => leaf _ rfl
  | .duration _ => leaf _ rfl
  | .foreign _ => leaf _ rfl

/-- So it holds of every item of a list. -/
theorem containerInduction_items (leaf : ∀ v, v.isContainer = false → motive v)
    (list : ∀ items, (∀ v ∈ items, motive v) → motive (.list items))
    (dict : ∀ ms : Members, (∀ m ∈ ms, motive m.2) → motive (.dict ms)) :
    ∀ items : List Value, ∀ v ∈ items, motive v
  | [] => List.forall_mem_nil _
  | v :: vs =>
    List.forall_mem_cons.mpr
      ⟨containerInduction leaf list dict v, containerInduction_items leaf list dict vs⟩

/-- So it holds of the value of every member of a dictionary. -/
theorem containerInduction_members (leaf : ∀ v, v.isContainer = false → motive v)
    (list : ∀ items, (∀ v ∈ items, motive v) → motive (.list items))
    (dict : ∀ ms : Members, (∀ m ∈ ms, motive m.2) → motive (.dict ms)) :
    ∀ ms : List (Value × Value), ∀ m ∈ ms, motive m.2
  | [] => List.forall_mem_nil _
  | (_, v) :: ms =>
    List.forall_mem_cons.mpr
      ⟨containerInduction leaf list dict v, containerInduction_members leaf list dict ms⟩

end

end Induction

/-! ### Parts -/

mutual

/-- The keys of a value and what in it is no container, in the order in which they are written. -/
def parts : Value → List Value
  | list items => partsOfItems items
  | dict ms => partsOfMembers ms
  | v => [v]

/-- The parts of values in order. -/
def partsOfItems : List Value → List Value
  | [] => []
  | v :: vs => v.parts ++ partsOfItems vs

/-- The keys of members, each before the parts of its value. -/
def partsOfMembers : Members → List Value
  | [] => []
  | (k, v) :: ms => k :: (v.parts ++ partsOfMembers ms)

end

/-- The least number of more than some digits. -/
@[irreducible] def leastBeyond (digits : Nat) : Nat := 10 ^ digits

/-- Whether a value is an integer of more digits than are written. -/
def isOverlong : Value → Bool
  | int i => leastBeyond Dialect.maxDigits ≤ i.natAbs
  | _ => false

/-- Whether a part has a notation in the lenient dialect. -/
def hasNotation : Value → Bool
  | null => true
  | bool _ => true
  | int i => i.natAbs < leastBeyond Dialect.maxDigits
  | float _ => true
  | nan _ => true
  | text _ => true
  | policy _ => true
  | _ => false

/-- The first of some parts that has no notation, if there is one. -/
def firstGap? (ps : List Value) : Option Value := ps.find? fun p => !p.hasNotation

/-- Of parts in a row the first without a notation is that of those in front, if there is one. -/
theorem firstGap?_append (ps qs : List Value) :
    firstGap? (ps ++ qs) = (firstGap? ps).or (firstGap? qs) := List.find?_append

/-- A part with a notation is passed over. -/
theorem firstGap?_cons {p : Value} (h : p.hasNotation = true) (ps : List Value) :
    firstGap? (p :: ps) = firstGap? ps := by
  rw [firstGap?, List.find?_cons_of_neg (by simp [h])]
  rfl

/-- Of parts gathered from a list the first without a notation depends on that of each gathering. -/
theorem firstGap?_flatMap_congr {ι : Type} {is : List ι} {f g : ι → List Value}
    (h : ∀ i ∈ is, firstGap? (f i) = firstGap? (g i)) :
    firstGap? (is.flatMap f) = firstGap? (is.flatMap g) := by
  induction is with
  | nil => rfl
  | cons i is ih =>
    obtain ⟨hi, his⟩ := List.forall_mem_cons.mp h
    rw [List.flatMap_cons, List.flatMap_cons, firstGap?_append, firstGap?_append, hi, ih his]

/-- An integer of 64 bits has a notation. -/
theorem hasNotation_of_fitsWord {n : Int} (h : FitsWord n) : (int n).hasNotation = true := by
  have hwidth : 20 ≤ Dialect.maxDigits := Nat.le_of_ble_eq_true rfl
  refine decide_eq_true ?_
  generalize Dialect.maxDigits = width at *
  have hpow : 10 ^ 20 ≤ 10 ^ width := Nat.pow_le_pow_right (by decide) hwidth
  obtain ⟨hleast, hgreatest⟩ := h
  rw [leastBeyond]
  omega

/-- What is no container is its own part. -/
theorem parts_of_isContainer {v : Value} (h : v.isContainer = false) : v.parts = [v] := by
  cases v with
  | list | dict => cases h
  | _ => rfl

end Value

namespace Json

open Value (firstGap? parts)

variable {α β : Type} {s : JsonStyle} {depth : Nat} {ps qs : List Value}

/-! ### What a work tells of parts -/

/-- A work has a result if all of some parts have a notation, and it reports too many digits exactly
if the first part that has none is an integer of so many. -/
structure Tells (r : Except WriteError α) (ps : List Value) : Prop where
  /-- There is a result exactly if every part has a notation. -/
  exists_ok_iff : (∃ a, r = .ok a) ↔ firstGap? ps = none
  /-- Too many digits are reported exactly of the first part without one. -/
  digits_iff : r = .error .digits ↔ ∃ p, firstGap? ps = some p ∧ p.isOverlong = true

/-- A result tells of no parts. -/
theorem tells_ok (a : α) : Tells (.ok a : Except WriteError α) [] where
  exists_ok_iff := iff_of_true ⟨a, rfl⟩ rfl
  digits_iff := iff_of_false (by simp) (by simp [firstGap?])

/-- One work after another tells of the parts of both. -/
theorem Tells.bind {r : Except WriteError α} {f : α → Except WriteError β} (h : Tells r ps)
    (hf : ∀ a, Tells (f a) qs) : Tells (r >>= f) (ps ++ qs) := by
  obtain ⟨hok, hdigits⟩ := h
  rcases r with e | a
  · obtain ⟨p, hp⟩ : ∃ p, firstGap? ps = some p := by
      rw [← Option.ne_none_iff_exists', ne_eq, ← hok]
      simp
    have happend : firstGap? (ps ++ qs) = some p := by rw [Value.firstGap?_append, hp, Option.some_or]
    rw [hp] at hdigits
    constructor
    · rw [happend]
      exact iff_of_false (by rintro ⟨b, ⟨⟩⟩) (by simp)
    · rw [happend, ← hdigits]
      exact Iff.intro (fun h => congrArg _ (Except.error.inj h))
        fun h => congrArg _ (Except.error.inj h)
  · have happend : firstGap? (ps ++ qs) = firstGap? qs := by
      rw [Value.firstGap?_append, hok.mp ⟨a, rfl⟩, Option.none_or]
    rw [show (Except.ok a >>= f) = f a from rfl]
    exact ⟨happend ▸ (hf a).exists_ok_iff, happend ▸ (hf a).digits_iff⟩

/-- A step that cannot fail tells of nothing more. -/
theorem Tells.bind_ok {r : Except WriteError α} (h : Tells r ps) (g : α → β) :
    Tells (r >>= fun a => .ok (g a)) ps := by
  have hbind := h.bind fun a => tells_ok (g a)
  rwa [List.append_nil] at hbind

/-- A part with a notation is written. -/
theorem tells_of_hasNotation {p : Value} (h : p.hasNotation = true) (a : α) :
    Tells (.ok a : Except WriteError α) [p] where
  exists_ok_iff := iff_of_true ⟨a, rfl⟩ (Value.firstGap?_cons h [])
  digits_iff := iff_of_false (by simp) (by rw [Value.firstGap?_cons h]; simp [firstGap?])

/-- A part without one is reported, and for its digits exactly if these are too many. -/
theorem tells_of_gap {p : Value} (h : p.hasNotation = false) {e : WriteError}
    (he : e = .digits ↔ p.isOverlong = true) : Tells (.error e : Except WriteError α) [p] := by
  have hgap : firstGap? [p] = some p := List.find?_cons_of_pos (by simp [h])
  constructor
  · rw [hgap]
    exact iff_of_false (by simp) (by simp)
  · rw [hgap]
    simpa using he

/-! ### The lenient dialect -/

/-- A number has up to 4300 digits exactly if it is below the least one of more. -/
theorem length_ofNat_le_maxDigits_iff (n : Nat) :
    (Text.ofNat n).length ≤ Dialect.maxDigits ↔ n < Value.leastBeyond Dialect.maxDigits := by
  have hpositive : 0 < Dialect.maxDigits := Nat.succ_pos _
  -- the power is not to be evaluated
  generalize Dialect.maxDigits = width at *
  rw [Value.leastBeyond, Text.length_ofNat_le_iff hpositive]

/-- An integer of up to 4300 digits is written. -/
theorem writeInt_tells (i : Int) : Tells (writeInt .lenient i) [.int i] := by
  rw [writeInt]
  split
  · rename_i h
    have hnotation : (Value.int i).hasNotation = true :=
      decide_eq_true ((length_ofNat_le_maxDigits_iff _).mp h)
    exact tells_of_hasNotation hnotation _
  · rename_i h
    have hle : Value.leastBeyond Dialect.maxDigits ≤ i.natAbs :=
      Nat.not_lt.mp (mt (length_ofNat_le_maxDigits_iff _).mpr h)
    have hgap : (Value.int i).hasNotation = false := decide_eq_false (Nat.not_lt.mpr hle)
    have hoverlong : (Value.int i).isOverlong = true := decide_eq_true hle
    exact tells_of_gap hgap (iff_of_true rfl hoverlong)

/-- A text is written, whatever it is. -/
theorem exists_writeText_lenient (t : Text) : ∃ u, writeText .lenient t = .ok u :=
  ⟨_, if_pos (.inl rfl)⟩

/-- A key is written if it has a notation. -/
theorem writeKey_tells (k : Value) : Tells (writeKey .lenient k) [k] := by
  have hquoted {p : Value} (h : p.hasNotation = true) (t : Text) :
      Tells (writeText .lenient t) [p] := by
    obtain ⟨u, hu⟩ := exists_writeText_lenient t
    rw [hu]
    exact tells_of_hasNotation h u
  cases k with
  | int i =>
    have hint := (writeInt_tells i).bind fun t => (exists_writeText_lenient t).elim fun u hu =>
      hu ▸ tells_ok u
    exact hint
  | bool b => cases b <;> exact hquoted rfl _
  | null | float | nan | text | policy => exact hquoted rfl _
  | list | dict | bytes | dateTime | duration | foreign =>
    exact tells_of_gap rfl (iff_of_false (by simp) (by simp [Value.isOverlong]))

/-- Items tell of their parts in order if each one tells of its own. -/
theorem writeItems_tells {items : List Value}
    (h : ∀ v ∈ items, Tells (writeAt .lenient s depth v) v.parts) :
    Tells (writeItems .lenient s depth items) (Value.partsOfItems items) := by
  induction items with
  | nil => exact tells_ok []
  | cons v vs ih =>
    obtain ⟨hv, hvs⟩ := List.forall_mem_cons.mp h
    rw [writeItems, Value.partsOfItems]
    exact hv.bind fun _ => (ih hvs).bind_ok _

/-- Members tell of their keys and of the parts of their values. -/
theorem memberPieces_tells {ms : Members}
    (h : ∀ m ∈ ms, Tells (writeAt .lenient s depth m.2) m.2.parts) :
    Tells (memberPieces .lenient s (writeMembers .lenient s depth ms)) (Value.partsOfMembers ms) := by
  induction ms with
  | nil => exact tells_ok []
  | cons m ms ih =>
    obtain ⟨k, v⟩ := m
    obtain ⟨hv, hms⟩ := List.forall_mem_cons.mp h
    rw [writeMembers, memberPieces, Value.partsOfMembers]
    exact (writeKey_tells k).bind fun _ => hv.bind fun _ => (ih hms).bind_ok _

/-- **Parts.** A value whose members are written as they come is written exactly if every part of it
has a notation, and too many digits are reported exactly of the first part that has none. -/
theorem writeAt_tells (hs : s.sorted = false) (v : Value) :
    ∀ depth, Tells (writeAt .lenient s depth v) v.parts := by
  induction v using Value.containerInduction with
  | leaf v hv =>
    intro depth
    rw [Value.parts_of_isContainer hv]
    cases v with
    | list | dict => cases hv
    | int i => exact writeInt_tells i
    | bool b => cases b <;> exact tells_of_hasNotation rfl _
    | null | float | nan => exact tells_of_hasNotation rfl _
    | text t | policy t =>
      obtain ⟨u, hu⟩ := exists_writeText_lenient _
      rw [writeAt, hu]
      exact tells_of_hasNotation rfl u
    | bytes | dateTime | duration | foreign =>
      exact tells_of_gap rfl (iff_of_false (by simp) (by simp [Value.isOverlong]))
  | list items ih =>
    intro depth
    rw [writeAt_list rfl, parts]
    exact (writeItems_tells fun v hv => ih v hv (depth + 1)).bind_ok _
  | dict ms ih =>
    intro depth
    rw [writeAt_dict rfl hs, parts]
    exact (memberPieces_tells fun m hm => ih m hm (depth + 1)).bind_ok _

/-! ### The strict dialect -/

/-- A result reports nothing. -/
theorem ok_ne_digits (a : α) : (.ok a : Except WriteError α) ≠ .error .digits := by simp

/-- One work after another does not report digits if neither does. -/
theorem bind_ne_digits {r : Except WriteError α} {f : α → Except WriteError β}
    (h : r ≠ .error .digits) (hf : ∀ a, f a ≠ .error .digits) : r >>= f ≠ .error .digits := by
  intro hbind
  obtain hr | ⟨a, -, ha⟩ := StreamConsumer.Except.bind_eq_error_iff.mp hbind
  · exact h hr
  · exact hf a ha

/-- A text has no digits to report. -/
theorem writeText_ne_digits (d : Dialect) (t : Text) : writeText d t ≠ .error .digits := by
  unfold writeText
  split <;> simp

/-- The strict dialect has no keys but texts. -/
theorem writeKey_strict_ne_digits (k : Value) : writeKey .strict k ≠ .error .digits := by
  cases k with
  | text t => exact writeText_ne_digits .strict t
  | _ => simp [writeKey]

/-- Items report no digits if none of them does. -/
theorem writeItems_strict_ne_digits {items : List Value}
    (h : ∀ v ∈ items, writeAt .strict s depth v ≠ .error .digits) :
    writeItems .strict s depth items ≠ .error .digits := by
  induction items with
  | nil => exact ok_ne_digits []
  | cons v vs ih =>
    obtain ⟨hv, hvs⟩ := List.forall_mem_cons.mp h
    rw [writeItems]
    exact bind_ne_digits hv fun _ => bind_ne_digits (ih hvs) fun _ => ok_ne_digits _

/-- Members report no digits if none of their values does. -/
theorem memberPieces_strict_ne_digits {ms : Members}
    (h : ∀ m ∈ ms, writeAt .strict s depth m.2 ≠ .error .digits) :
    memberPieces .strict s (writeMembers .strict s depth ms) ≠ .error .digits := by
  induction ms with
  | nil => exact ok_ne_digits []
  | cons m ms ih =>
    obtain ⟨hv, hms⟩ := List.forall_mem_cons.mp h
    rw [writeMembers, memberPieces]
    exact bind_ne_digits (writeKey_strict_ne_digits m.1) fun _ =>
      bind_ne_digits hv fun _ => bind_ne_digits (ih hms) fun _ => ok_ne_digits _

/-- The strict dialect reports no digits, since it has no integers of so many. -/
theorem writeAt_strict_ne_digits (hs : s.sorted = false) (v : Value) :
    ∀ depth, writeAt .strict s depth v ≠ .error .digits := by
  induction v using Value.containerInduction with
  | leaf v hv =>
    intro depth
    cases v with
    | list | dict => cases hv
    | int i =>
      rw [writeAt, writeInt]
      split <;> simp
    | bool b => cases b <;> exact ok_ne_digits _
    | text t => exact writeText_ne_digits .strict t
    | policy p => exact writeText_ne_digits .strict p.wire
    | _ => simp [writeAt]
  | list items ih =>
    intro depth
    by_cases hdepth : Dialect.strict.admitsDepth depth = true
    · rw [writeAt_list hdepth]
      have hitems := writeItems_strict_ne_digits fun v hv => ih v hv (depth + 1)
      exact bind_ne_digits hitems fun _ => ok_ne_digits _
    · rw [writeAt, if_neg hdepth]
      simp
  | dict ms ih =>
    intro depth
    by_cases hdepth : Dialect.strict.admitsDepth depth = true
    · rw [writeAt_dict hdepth hs]
      have hmembers := memberPieces_strict_ne_digits fun m hm => ih m hm (depth + 1)
      exact bind_ne_digits hmembers fun _ => ok_ne_digits _
    · rw [writeAt, if_neg hdepth]
      simp

end Json

end StreamConsumer
