import StreamConsumer.Proofs.Binary64.Overflow
import StreamConsumer.Proofs.Json.Reading
import StreamConsumer.Proofs.Json.Scalar

/-!
# What the lenient reader makes of strict text

The lenient dialect reads every text that the strict one reads, and it reads the same value but for one
thing: an integer beyond 64 bits stays an integer, where the strict dialect takes the binary64 number
nearest to it. `Value.narrowed` makes this change of a value. **Main statement** (`read_follows`).

The lenient dialect has a limit of its own, on the digits of an integer. It does not count here, because
an integer with so many digits is beyond the greatest binary64 number too. Each scanner of the lenient
dialect follows that of the strict one; the three readers do so together by induction on their fuel,
`Lenient`.
-/

namespace StreamConsumer

namespace Value

mutual

/-- A value as the strict dialect has it: integers beyond 64 bits are binary64 numbers. -/
def narrowed : Value → Value
  | int i => if FitsWord i then int i else float (.ofDecimal (i < 0) i.natAbs 0)
  | list items => list (narrowedItems items)
  | dict ms => dict (narrowedMembers ms)
  | v => v

/-- All items so. -/
def narrowedItems : List Value → List Value
  | [] => []
  | v :: vs => v.narrowed :: narrowedItems vs

/-- All values of members so. -/
def narrowedMembers : List (Value × Value) → List (Value × Value)
  | [] => []
  | (k, v) :: ms => (k, v.narrowed) :: narrowedMembers ms

end

/-- The keys of members stay. -/
theorem narrowedMembers_eq_mapValues (ms : Members) : narrowedMembers ms = ms.mapValues narrowed := by
  induction ms with
  | nil => rfl
  | cons m ms ih => exact congrArg ((m.1, m.2.narrowed) :: ·) ih

/-- A dictionary is narrowed value by value. -/
theorem narrowed_dict (ms : Members) : (dict ms).narrowed = dict (ms.mapValues narrowed) := by
  rw [narrowed, narrowedMembers_eq_mapValues]

/-- Narrowing changes integers, lists and dictionaries alone. -/
theorem narrowed_cases (v : Value) : v.narrowed = v ∨ (∃ i x, v = int i ∧ v.narrowed = float x) ∨
    (∃ vs, v = list vs ∧ v.narrowed = list (narrowedItems vs)) ∨
      ∃ ms : Members, v = dict ms ∧ v.narrowed = dict (ms.mapValues narrowed) := by
  cases v with
  | int i =>
    rw [narrowed]
    split
    · exact .inl rfl
    · exact .inr (.inl ⟨i, _, rfl, rfl⟩)
  | list vs => exact .inr (.inr (.inl ⟨vs, rfl, rfl⟩))
  | dict ms => exact .inr (.inr (.inr ⟨ms, rfl, narrowed_dict ms⟩))
  | _ => exact .inl rfl

/-- A narrowed value is null exactly if the value is. -/
theorem isNull_narrowed (v : Value) : v.narrowed.isNull = v.isNull := by
  obtain h | ⟨i, x, rfl, h⟩ | ⟨vs, rfl, h⟩ | ⟨ms, rfl, h⟩ := v.narrowed_cases <;> rw [h] <;> rfl

/-- Only a dictionary becomes a dictionary. -/
theorem narrowed_eq_dict {v : Value} {ms : Members} (h : v.narrowed = dict ms) :
    ∃ ns : Members, v = dict ns ∧ ns.mapValues narrowed = ms := by
  cases v with
  | dict ns => exact ⟨ns, rfl, dict.inj ((narrowed_dict ns).symm.trans h)⟩
  | int i =>
    rw [narrowed] at h
    split at h <;> cases h
  | _ => cases h

end Value

namespace Members

variable {ms ns : Members} {key : Text}

/-- What is not there in narrowed members is not there before. -/
theorem get_eq_null_of_narrowed (h : (ms.mapValues Value.narrowed).get key = .null) :
    ms.get key = .null := by
  rw [get_mapValues _ rfl] at h
  rw [← Value.isNull_iff, ← Value.isNull_narrowed, h]
  rfl

/-- A dictionary in narrowed members is a narrowed one. -/
theorem get_eq_dict_of_narrowed (h : (ms.mapValues Value.narrowed).get key = .dict ns) :
    ∃ ns' : Members, ms.get key = .dict ns' ∧ ns'.mapValues Value.narrowed = ns :=
  Value.narrowed_eq_dict ((get_mapValues _ rfl ms key).symm.trans h)

end Members

namespace Json

open StreamConsumer.Except (Follows)

variable {s rest : Text}

/-! ### Strings -/

/-- A unit that the strict dialect admits alone the lenient one admits as the same code point. -/
theorem lone?_lenient {n : Nat} {c : CodePoint} (h : lone? .strict n = some c) :
    lone? .lenient n = some c := by
  unfold lone? at h
  split at h
  · cases h
  · exact h

/-- What pieces spell in the strict dialect they spell in the lenient one. -/
theorem spell?_lenient {ps : List Piece} {t : Text} (h : spell? .strict ps = some t) :
    spell? .lenient ps = some t := by
  fun_induction spell? .strict ps generalizing t with
  | case1 => exact h
  | case2 c ps ih =>
    obtain ⟨t', ht', rfl⟩ := Option.map_eq_some_iff.mp h
    rw [spell?, ih ht', Option.map_some]
  | case3 n m ps hpair ih =>
    obtain ⟨t', ht', rfl⟩ := Option.map_eq_some_iff.mp h
    rw [spell?, if_pos hpair, ih ht', Option.map_some]
  | case4 n m ps hpair ih =>
    simp only [Option.bind_eq_bind, Option.bind_eq_some_iff, Option.pure_def, Option.some.injEq] at h
    obtain ⟨c, hc, t', ht', rfl⟩ := h
    rw [spell?, if_neg hpair, lone?_lenient hc, ih ht']
    rfl
  | case5 n ps hps ih =>
    simp only [Option.bind_eq_bind, Option.bind_eq_some_iff, Option.pure_def, Option.some.injEq] at h
    obtain ⟨c, hc, t', ht', rfl⟩ := h
    rw [spell?.eq_4 _ _ _ hps, lone?_lenient hc, ih ht']
    rfl

/-- The lenient dialect follows the strict one in strings. -/
theorem readText_follows (s : Text) : Follows id (readText .strict s) (readText .lenient s) := by
  rintro ⟨t, rest⟩ h
  unfold readText at h ⊢
  split at h
  · cases h
  · split at h
    · cases h
    · rename_i ht
      rw [spell?_lenient ht]
      exact ⟨(t, rest), h, rfl⟩

/-! ### Numbers -/

/-- A whole part starts with a digit and has no more digits than its number has bits, but for one. -/
theorem whole?_eq_some {digits : Text} (h : whole? s = some (digits, rest)) :
    (∃ c u, s = c :: u ∧ c.isDigit = true) ∧ digits.length ≤ digits.digitsValue.log2 + 1 := by
  unfold whole? at h
  split at h
  · cases h
  · rename_i c u
    split at h
    · rename_i h0
      obtain ⟨rfl, -⟩ := Prod.mk.inj (Option.some.inj h)
      exact ⟨⟨c, u, rfl, h0 ▸ rfl⟩, Nat.le_add_left 1 _⟩
    · rename_i h0
      split at h
      · rename_i hc
        obtain ⟨rfl, -⟩ := Prod.mk.inj (Option.some.inj h)
        exact ⟨⟨c, u, rfl, hc⟩, Nat.succ_le_succ (Text.length_le_log2_digitsValue hc h0)⟩
      · cases h

/-- No constant is a numeral. -/
theorem constant?_of_numeral? (d : Dialect) {n : Numeral} (h : numeral? s = some (n, rest)) :
    constant? d s = none := by
  obtain ⟨u, u', hsign, hwhole, -⟩ := numeral?_eq_some h
  obtain ⟨⟨c, u, rfl, hc⟩, -⟩ := whole?_eq_some hwhole
  rcases hsign with rfl | rfl
  · exact constant?_digit d u hc
  · exact constant?_minus_digit d u hc

/-- So it does in finite numbers. -/
theorem finiteValue_follows (x : Binary64) :
    Follows Value.narrowed (finiteValue .strict x) (finiteValue .lenient x) := by
  cases x with
  | finite negative significand exponent => exact .ok rfl
  | infinite negative => exact .error _

/-- The integer of a sign and a magnitude. -/
theorem sign_natAbs {negative : Bool} {m : Nat} (hm : m ≠ 0) {i : Int}
    (hi : i = if negative then -(m : Int) else m) : decide (i < 0) = negative ∧ i.natAbs = m := by
  subst hi
  cases negative
  · exact ⟨decide_eq_false (by simp), rfl⟩
  · exact ⟨decide_eq_true (by simp; omega), by simp⟩

/-- A word has no more than 64 bits. -/
theorem log2_lt_of_fitsWord {negative : Bool} {m : Nat}
    (h : FitsWord (if negative then -(m : Int) else m)) : m.log2 < 1024 := by
  obtain ⟨hleast, hgreatest⟩ := h
  have hm : m < 2 ^ 64 := by
    cases negative <;> simp at hleast hgreatest <;> omega
  rcases Nat.eq_zero_or_pos m with rfl | hpos
  · decide
  · exact Nat.lt_trans ((Nat.log2_lt (by omega)).mpr hm) (by decide)

/-- An integer that the strict dialect reads in either way has few enough digits for the lenient one. -/
theorem integerValue_follows (negative : Bool) {digits : Text}
    (hlen : digits.length ≤ digits.digitsValue.log2 + 1) :
    Follows Value.narrowed (integerValue .strict negative digits)
      (integerValue .lenient negative digits) := by
  intro v h
  have hdigits (hlog : digits.digitsValue.log2 < 1024) : digits.length ≤ Dialect.maxDigits := by
    rw [Dialect.maxDigits]
    omega
  simp only [integerValue] at h ⊢
  generalize hi : (if negative then -(digits.digitsValue : Int) else digits.digitsValue) = i at h ⊢
  split at h
  · rename_i hadmits
    have hfits : FitsWord i := of_decide_eq_true hadmits
    obtain rfl := Except.ok.inj h
    refine ⟨.int i, if_pos (hdigits (log2_lt_of_fitsWord (hi ▸ hfits))), ?_⟩
    rw [Value.narrowed, if_pos hfits]
  · rename_i hadmits
    have hwide : ¬ FitsWord i := fun hfits => hadmits (decide_eq_true hfits)
    have hm : digits.digitsValue ≠ 0 := by
      intro h0
      rw [h0] at hi
      subst hi
      cases negative <;> exact hwide (by decide)
    -- With more bits than that, the strict dialect would have had an infinity and refused it.
    rcases Nat.lt_or_ge digits.digitsValue.log2 1024 with hlog | hlog
    · obtain ⟨hnegative, habs⟩ := sign_natAbs hm hi.symm
      refine ⟨.int i, if_pos (hdigits hlog), ?_⟩
      rw [Value.narrowed, if_neg hwide, hnegative, habs, eq_float_of_finiteValue h]
    · rw [Binary64.ofDecimal_eq_infinite negative hlog] at h
      cases h

/-- So it does in numerals, except that integers of more than 64 bits are binary64 numbers in the strict
one. -/
theorem numeralValue_follows {n : Numeral} (h : numeral? s = some (n, rest)) :
    Follows Value.narrowed (numeralValue .strict n) (numeralValue .lenient n) := by
  obtain ⟨u, u', -, hwhole, -⟩ := numeral?_eq_some h
  have hlen := (whole?_eq_some hwhole).2
  obtain ⟨negative, whole, fraction, exponent⟩ := n
  cases fraction with
  | some fraction => exact finiteValue_follows _
  | none =>
    cases exponent with
    | some exponent => exact finiteValue_follows _
    | none => exact integerValue_follows negative hlen

/-! ### Constants -/

/-- The lenient dialect has the constants of the strict one, and these stay as they are. -/
theorem constant?_lenient {v : Value} (h : constant? .strict s = some (v, rest)) :
    constant? .lenient s = some (v, rest) ∧ v.narrowed = v := by
  constructor
  · rw [constant?, List.append_nil] at h
    rw [constant?, List.findSome?_append, h]
    rfl
  · obtain hv | ⟨hd, -⟩ := constant?_mem h
    · simp only [List.mem_cons, List.not_mem_nil, or_false] at hv
      obtain rfl | rfl | rfl := hv <;> rfl
    · cases hd

/-- So it does in all that is no container. -/
theorem readScalar_follows (s : Text) :
    Follows (Prod.map Value.narrowed id) (readScalar .strict s) (readScalar .lenient s) := by
  rcases hconstant : constant? .strict s with _ | ⟨v, rest⟩
  · rcases hn : numeral? s with _ | ⟨n, rest⟩
    · rw [readScalar, hconstant, hn]
      exact .error _
    · rw [readScalar, readScalar, hconstant, constant?_of_numeral? .lenient hn, hn]
      exact (numeralValue_follows hn).bind fun v => .ok rfl
  · obtain ⟨hlenient, hv⟩ := constant?_lenient hconstant
    rw [readScalar, readScalar, hconstant, hlenient]
    exact .ok (congrArg (·, rest) hv)

/-! ### Values -/

/-- With so much fuel, the three readers of the lenient dialect follow those of the strict one. -/
structure Lenient (fuel : Nat) : Prop where
  /-- They read the same values. -/
  value : ∀ depth s, Follows (Prod.map Value.narrowed id)
    (readValue .strict fuel depth s) (readValue .lenient fuel depth s)
  /-- They read the same items. -/
  items : ∀ depth s, Follows (Prod.map Value.narrowedItems id)
    (readItems .strict fuel depth s) (readItems .lenient fuel depth s)
  /-- They read the same members. -/
  members : ∀ depth s, Follows (Prod.map Value.narrowedMembers id)
    (readMembers .strict fuel depth s) (readMembers .lenient fuel depth s)

/-- To read a list or a dictionary, the lenient dialect does not look at the depth. -/
theorem Lenient.value_succ {fuel : Nat} (ih : Lenient fuel) (depth : Nat) (s : Text) :
    Follows (Prod.map Value.narrowed id)
      (readValue .strict (fuel + 1) depth s) (readValue .lenient (fuel + 1) depth s) := by
  cases s with
  | nil => exact .error _
  | cons c s =>
    have hdepth : Dialect.lenient.readsDepth depth = true := rfl
    rw [readValue, readValue, if_pos hdepth, if_pos hdepth]
    refine .ite ((readText_follows s).bind fun r => .ok rfl) (.ite (.guarded fun _ => ?_)
      (.ite (.guarded fun _ => ?_) (readScalar_follows _)))
    · rcases skipBlank s with _ | ⟨e, u⟩
      · exact .error _
      · exact .ite (.ok rfl) ((ih.items _ _).bind fun r => .ok rfl)
    · rcases skipBlank s with _ | ⟨e, u⟩
      · exact .error _
      · -- Which members are dropped for another of the same key depends on the keys alone.
        refine .ite (.ok rfl) ((ih.members _ _).bind ?_)
        rintro ⟨ms, r⟩
        refine .ok (congrArg (·, r) ?_)
        rw [Value.narrowed_dict, ← Members.ofList_mapValues, ← Value.narrowedMembers_eq_mapValues]

/-- It follows in items if it follows with one unit of fuel less. -/
theorem Lenient.items_succ {fuel : Nat} (ih : Lenient fuel) (depth : Nat) (s : Text) :
    Follows (Prod.map Value.narrowedItems id)
      (readItems .strict (fuel + 1) depth s) (readItems .lenient (fuel + 1) depth s) := by
  rw [readItems, readItems]
  refine (ih.value depth s).bind ?_
  rintro ⟨v, r⟩
  simp only [Prod.map, id]
  rcases skipBlank r with _ | ⟨e, u⟩
  · exact .error _
  · exact .ite (.ok rfl) (.ite ((ih.items _ _).bind fun r => .ok rfl) (.error _))

/-- It follows in members if it follows with one unit of fuel less. -/
theorem Lenient.members_succ {fuel : Nat} (ih : Lenient fuel) (depth : Nat) (s : Text) :
    Follows (Prod.map Value.narrowedMembers id)
      (readMembers .strict (fuel + 1) depth s) (readMembers .lenient (fuel + 1) depth s) := by
  cases s with
  | nil => exact .error _
  | cons q s =>
    rw [readMembers, readMembers]
    refine .ite ((readText_follows s).bind ?_) (.error _)
    rintro ⟨key, r⟩
    simp only [id]
    rcases skipBlank r with _ | ⟨e, u⟩
    · exact .error _
    · refine .ite ((ih.value _ _).bind ?_) (.error _)
      rintro ⟨v, r⟩
      simp only [Prod.map, id]
      rcases skipBlank r with _ | ⟨e, u⟩
      · exact .error _
      · exact .ite (.ok rfl) (.ite ((ih.members _ _).bind fun r => .ok rfl) (.error _))

/-- **Reading follows** with any amount of fuel. -/
theorem lenient (fuel : Nat) : Lenient fuel := by
  induction fuel with
  | zero => exact ⟨fun _ _ => .error _, fun _ _ => .error _, fun _ _ => .error _⟩
  | succ fuel ih => exact ⟨ih.value_succ, ih.items_succ, ih.members_succ⟩

/-- **Leniency.** Where the strict dialect reads a text, the lenient one reads it, and the value is the
same except that integers stay integers. -/
theorem read_follows (s : Text) :
    Follows Value.narrowed (Json.read .strict s) (Json.read .lenient s) := by
  refine ((lenient _).value 0 (skipBlank s)).bind ?_
  rintro ⟨v, rest⟩
  exact .ite (.ok rfl) (.error _)

end Json

end StreamConsumer
