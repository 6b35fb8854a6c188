import Mathlib.Data.List.TakeDrop
import StreamConsumer.Json.Reader
import StreamConsumer.Json.Writer
import StreamConsumer.Proofs.Text.Numeral

/-!
# Constants and integers, read back

A numeral ends where no digit, point or exponent follows (`EndsNumeral`). Up to such an end the
notation of an integer of 64 bits is read as that integer by either dialect, `readScalar_ofInt`, and
the three common constants are read as what they stand for.
-/

namespace StreamConsumer

namespace Json

/-! ### Where a numeral ends -/

/-- What follows cannot belong to a numeral. -/
def EndsNumeral (rest : Text) : Prop :=
  ∀ c ∈ rest.head?, c.isDigit = false ∧ c ≠ 0x2E ∧ c ≠ 0x65 ∧ c ≠ 0x45

/-- A numeral ends at the end of the text. -/
theorem endsNumeral_nil : EndsNumeral [] := fun _ h => absurd h (by simp)

/-- It ends before a code point that no numeral has. -/
theorem endsNumeral_cons {c : CodePoint} {s : Text}
    (h : c.isDigit = false ∧ c ≠ 0x2E ∧ c ≠ 0x65 ∧ c ≠ 0x45) : EndsNumeral (c :: s) := by
  intro k hk
  obtain rfl : c = k := by simpa using hk
  exact h

/-- A run of digits ends where a numeral may end. -/
theorem span_isDigit {digits rest : Text} (hd : ∀ c ∈ digits, c.isDigit = true)
    (hr : EndsNumeral rest) : (digits ++ rest).span CodePoint.isDigit = (digits, rest) := by
  have hrest : rest.takeWhile CodePoint.isDigit = [] ∧ rest.dropWhile CodePoint.isDigit = rest := by
    cases rest with
    | nil => exact ⟨rfl, rfl⟩
    | cons c s =>
      have hc := (hr c (by simp)).1
      simp [hc]
  rw [List.span_eq_takeWhile_dropWhile, List.takeWhile_append_of_pos hd,
    List.dropWhile_append_of_pos hd, hrest.1, hrest.2, List.append_nil]

/-! ### The parts of a numeral -/

/-- Where a numeral ends there is no fraction. -/
theorem fractionDigits_of_endsNumeral {rest : Text} (h : EndsNumeral rest) :
    fractionDigits rest = (none, rest) := by
  unfold fractionDigits
  split
  · rename_i c e s
    rw [if_neg]
    exact fun hc => (h c (by simp)).2.1 hc.1
  · rfl

/-- Where a numeral ends there is no exponent. -/
theorem exponentValue_of_endsNumeral {rest : Text} (h : EndsNumeral rest) :
    exponentValue rest = (none, rest) := by
  unfold exponentValue
  split
  · rename_i c s
    have hc := h c (by simp)
    rw [if_neg]
    exact not_or.mpr ⟨hc.2.2.1, hc.2.2.2⟩
  · rfl

/-- The whole part of a numeral is the number written. -/
theorem whole?_ofNat (n : Nat) {rest : Text} (h : EndsNumeral rest) :
    whole? (Text.ofNat n ++ rest) = some (Text.ofNat n, rest) := by
  rcases Text.ofNat_eq_cons n with h0 | ⟨c, s, hs, hc0, hcd⟩
  · rw [h0]
    rfl
  · have hd : ∀ k ∈ s, k.isDigit = true := fun k hk =>
      Text.isDigit_of_mem_ofNat (n := n) (by simp [hs, hk])
    rw [hs, List.cons_append, whole?]
    simp only [if_neg hc0, if_pos hcd, span_isDigit hd h]

/-- A numeral starts with a digit. -/
theorem ofNat_append_eq_cons (n : Nat) (rest : Text) :
    ∃ c s, Text.ofNat n ++ rest = c :: s ∧ c.isDigit = true := by
  obtain ⟨c, s, hs⟩ := List.exists_cons_of_ne_nil (Text.ofNat_ne_nil n)
  exact ⟨c, s ++ rest, by rw [hs, List.cons_append],
    Text.isDigit_of_mem_ofNat (n := n) (by simp [hs])⟩

/-- The numeral of a natural number. -/
theorem numeral?_ofNat (n : Nat) {rest : Text} (h : EndsNumeral rest) :
    numeral? (Text.ofNat n ++ rest) = some (⟨false, Text.ofNat n, none, none⟩, rest) := by
  obtain ⟨c, s, hs, hc⟩ := ofNat_append_eq_cons n rest
  have hminus : c ≠ 0x2D := by
    rintro rfl
    exact absurd hc (by decide)
  have hw := whole?_ofNat n h
  rw [numeral?.eq_def]
  rw [hs] at hw ⊢
  simp only [if_neg hminus, hw, fractionDigits_of_endsNumeral h, exponentValue_of_endsNumeral h]

/-- The numeral of a negative integer. -/
theorem numeral?_minus_ofNat (n : Nat) {rest : Text} (h : EndsNumeral rest) :
    numeral? (0x2D :: (Text.ofNat n ++ rest)) = some (⟨true, Text.ofNat n, none, none⟩, rest) := by
  rw [numeral?.eq_def]
  simp only [if_true, whole?_ofNat n h, fractionDigits_of_endsNumeral h,
    exponentValue_of_endsNumeral h]

/-- The value of a numeral without point and exponent is the integer, if that has 64 bits. -/
theorem numeralValue_ofNat (d : Dialect) (negative : Bool) {n : Nat}
    (h : FitsWord (if negative then -n else n)) :
    numeralValue d ⟨negative, Text.ofNat n, none, none⟩ =
      .ok (.int (if negative then -n else n)) := by
  have hn : n < 10 ^ 20 := by
    obtain ⟨h1, h2⟩ := h
    cases negative <;> simp at h1 h2 <;> omega
  have hlen : (Text.ofNat n).length ≤ Dialect.maxDigits :=
    Nat.le_trans (Text.length_ofNat_le (by decide) hn) (by decide)
  simp only [numeralValue, integerValue, Text.digitsValue_ofNat]
  cases d with
  | strict => rw [if_pos]; simpa [Dialect.admitsInt] using h
  | lenient => rw [if_pos hlen]

/-! ### Constants -/

/-- A word does not stand at the start of a text that starts differently. -/
theorem afterWord?_cons_ne {k c : CodePoint} (w s : Text) (h : k ≠ c) :
    afterWord? (k :: w) (c :: s) = none := by
  rw [afterWord?, List.isPrefixOf_cons_cons, beq_false_of_ne h]
  rfl

/-- A word is passed code point by code point. -/
theorem afterWord?_cons_cons (c : CodePoint) (w s : Text) :
    afterWord? (c :: w) (c :: s) = afterWord? w s := by
  simp [afterWord?]

/-- What starts with none of the words is no constant. The lenient dialect knows them all. -/
theorem constant?_eq_none (d : Dialect) {s : Text}
    (h : ∀ w ∈ ["null", "true", "false", "NaN", "Infinity", "-Infinity"],
      afterWord? (Text.ofString w) s = none) : constant? d s = none := by
  simp only [List.forall_mem_cons] at h
  obtain ⟨hnull, htrue, hfalse, hnan, hinf, hneg, -⟩ := h
  cases d <;> simp [constant?, hnull, htrue, hfalse, hnan, hinf, hneg]

/-- No constant starts with a digit. -/
theorem constant?_digit (d : Dialect) {c : CodePoint} (s : Text) (hc : c.isDigit = true) :
    constant? d (c :: s) = none := by
  have hne {k : CodePoint} (hk : k.isDigit = false) : k ≠ c := by
    rintro rfl
    rw [hc] at hk
    cases hk
  apply constant?_eq_none
  intro w hw
  simp only [List.mem_cons, List.not_mem_nil, or_false] at hw
  rcases hw with rfl | rfl | rfl | rfl | rfl | rfl <;> exact afterWord?_cons_ne _ _ (hne (by decide))

/-- No constant is a minus sign with a digit after it. -/
theorem constant?_minus_digit (d : Dialect) {c : CodePoint} (s : Text) (hc : c.isDigit = true) :
    constant? d (0x2D :: c :: s) = none := by
  apply constant?_eq_none
  intro w hw
  simp only [List.mem_cons, List.not_mem_nil, or_false] at hw
  rcases hw with rfl | rfl | rfl | rfl | rfl | rfl
  -- Only the word for the negative infinity starts with a minus sign, and a letter follows there.
  case inr.inr.inr.inr.inr =>
    have hI : (0x49 : CodePoint) ≠ c := by
      rintro rfl
      exact absurd hc (by decide)
    rw [show Text.ofString "-Infinity" = 0x2D :: 0x49 :: Text.ofString "nfinity" from rfl,
      afterWord?_cons_cons, afterWord?_cons_ne _ _ hI]
  all_goals exact afterWord?_cons_ne _ _ (by decide)

/-- A word is passed where it stands. -/
theorem afterWord?_append (word rest : Text) : afterWord? word (word ++ rest) = some rest := by
  simp [afterWord?]

/-! ### Scalars -/

/-- The word for null is read as null. -/
theorem readScalar_null (d : Dialect) (rest : Text) :
    readScalar d (Text.ofString "null" ++ rest) = .ok (.null, rest) := by
  have hc : constant? d (Text.ofString "null" ++ rest) = some (.null, rest) := by
    simp only [constant?, List.cons_append, List.findSome?_cons, afterWord?_append, Option.map_some]
  rw [readScalar, hc]

/-- The word for true is read as true. -/
theorem readScalar_true (d : Dialect) (rest : Text) :
    readScalar d (Text.ofString "true" ++ rest) = .ok (.bool true, rest) := by
  have hn : afterWord? ("null" : String) (Text.ofString "true" ++ rest) = none :=
    afterWord?_cons_ne _ _ (by decide)
  have hc : constant? d (Text.ofString "true" ++ rest) = some (.bool true, rest) := by
    simp only [constant?, List.cons_append, List.findSome?_cons, hn, afterWord?_append,
      Option.map_none, Option.map_some]
  rw [readScalar, hc]

/-- The word for false is read as false. -/
theorem readScalar_false (d : Dialect) (rest : Text) :
    readScalar d (Text.ofString "false" ++ rest) = .ok (.bool false, rest) := by
  have hn : afterWord? ("null" : String) (Text.ofString "false" ++ rest) = none :=
    afterWord?_cons_ne _ _ (by decide)
  have ht : afterWord? ("true" : String) (Text.ofString "false" ++ rest) = none :=
    afterWord?_cons_ne _ _ (by decide)
  have hc : constant? d (Text.ofString "false" ++ rest) = some (.bool false, rest) := by
    simp only [constant?, List.cons_append, List.findSome?_cons, hn, ht, afterWord?_append,
      Option.map_none, Option.map_some]
  rw [readScalar, hc]

/-- **Integers read back.** Up to the end of its numeral, the notation of an integer of 64 bits is
read as that integer by either dialect. -/
theorem readScalar_ofInt (d : Dialect) {i : Int} (hi : FitsWord i) {rest : Text}
    (h : EndsNumeral rest) : readScalar d (Text.ofInt i ++ rest) = .ok (.int i, rest) := by
  cases i with
  | ofNat n =>
    obtain ⟨c, s, hs, hc⟩ := ofNat_append_eq_cons n rest
    have hnum := numeral?_ofNat n h
    rw [Text.ofInt, readScalar, hnum, hs, constant?_digit d s hc]
    simp only
    rw [numeralValue_ofNat d false (by simpa using hi)]
    rfl
  | negSucc n =>
    obtain ⟨c, s, hs, hc⟩ := ofNat_append_eq_cons (n + 1) rest
    have hnum := numeral?_minus_ofNat (n + 1) h
    have ht : Text.ofInt (.negSucc n) ++ rest = 0x2D :: (Text.ofNat (n + 1) ++ rest) := rfl
    rw [ht, readScalar, hnum, hs, constant?_minus_digit d s hc]
    simp only
    rw [numeralValue_ofNat d true (by simpa [Int.negSucc_eq] using hi)]
    rfl

end Json

end StreamConsumer
