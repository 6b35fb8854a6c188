import Mathlib.Algebra.Order.Floor.Ring
import Mathlib.Data.Rat.Floor
import Mathlib.Tactic.FieldSimp
import Mathlib.Tactic.Linarith
import Mathlib.Tactic.Ring
import StreamConsumer.Proofs.Text.Numeral
import StreamConsumer.Text.DecimalDigit

/-!
# Numerals of every script

A decimal digit of any script has a value, `CodePoint.decimalValue`, and a run of such digits denotes a
number, `Text.decimalsValue`, which is the one that `Text.digitsValue` finds if the digits are ASCII.
After a point the same digits denote a fraction, `Text.fractionValue`. To cut the fraction after `n`
digits is to keep that many of them, with zeros for those that are missing (`floor_fractionValue`).

Of the decimal digits those of ASCII are told by their number alone, `isAscii_iff_of_isDecimal`.
-/

namespace StreamConsumer

namespace CodePoint

/-- The value of a decimal digit of any script: its distance from the zero of that script. Any other
code point counts as zero. -/
def decimalValue (c : CodePoint) : Nat :=
  ((decimalZeros.find? fun first => first ≤ c.val && c.val < first + 10).map (c.val - ·)).getD 0

/-- A digit is below ten. -/
theorem decimalValue_lt (c : CodePoint) : c.decimalValue < 10 := by
  unfold decimalValue
  rcases hfirst : decimalZeros.find? _ with _ | first
  · simp
  · have hrange := List.find?_some hfirst
    simp only [Bool.and_eq_true, decide_eq_true_eq] at hrange
    simp only [Option.map_some, Option.getD_some]
    omega

/-- The value of an ASCII digit is what it is as such. -/
theorem decimalValue_of_isDigit {c : CodePoint} (h : c.isDigit = true) :
    c.decimalValue = c.digit?.getD 0 := by
  obtain ⟨hleast, hgreatest⟩ := isDigit_iff.mp h
  have hfirst : (decimalZeros.find? fun first => first ≤ c.val && c.val < first + 10) =
      some 0x30 := by
    rw [decimalZeros, List.find?_cons_of_pos]
    simp only [Bool.and_eq_true, decide_eq_true_eq]
    omega
  rw [decimalValue, hfirst, digit?, if_pos ⟨hleast, hgreatest⟩]
  rfl

/-- The digits of every other script lie beyond ASCII. -/
theorem isDigit_of_isDecimal {c : CodePoint} (h : c.isDecimal = true) (hc : c.val < 0x80) :
    c.isDigit = true := by
  have hzeros : ∀ first ∈ decimalZeros, first = 0x30 ∨ 0x80 ≤ first := by decide
  obtain ⟨first, hmem, hrange⟩ := List.any_eq_true.mp h
  simp only [Bool.and_eq_true, decide_eq_true_eq] at hrange
  rw [isDigit_iff]
  obtain rfl | hbeyond := hzeros first hmem <;> omega

end CodePoint

namespace Text

/-- The number that a run of decimal digits of any script denotes. -/
def decimalsValue (t : Text) : Nat := t.foldl (fun n c => 10 * n + c.decimalValue) 0

/-- Digits after a number count it as so many tens. -/
theorem foldl_decimals (t : Text) (start : Nat) :
    t.foldl (fun n c => 10 * n + c.decimalValue) start =
      start * 10 ^ t.length + t.decimalsValue := by
  induction t generalizing start with
  | nil => simp [decimalsValue]
  | cons c t ih =>
    rw [decimalsValue, List.foldl_cons, List.foldl_cons, ih, ih (10 * 0 + c.decimalValue),
      List.length_cons]
    ring

/-- Digits in front count for as many powers of ten as digits follow. -/
theorem decimalsValue_append (s t : Text) :
    decimalsValue (s ++ t) = s.decimalsValue * 10 ^ t.length + t.decimalsValue := by
  rw [decimalsValue, List.foldl_append, foldl_decimals t, ← decimalsValue]

/-- A run of digits denotes a number below the power of ten that has one digit more. -/
theorem decimalsValue_lt (t : Text) : t.decimalsValue < 10 ^ t.length := by
  induction t with
  | nil => decide
  | cons c t ih =>
    have hc := c.decimalValue_lt
    have hsplit : decimalsValue (c :: t) = c.decimalValue * 10 ^ t.length + decimalsValue t := by
      rw [decimalsValue, List.foldl_cons, foldl_decimals, Nat.mul_zero, Nat.zero_add]
    calc decimalsValue (c :: t) < c.decimalValue * 10 ^ t.length + 10 ^ t.length := by omega
      _ = (c.decimalValue + 1) * 10 ^ t.length := by ring
      _ ≤ 10 * 10 ^ t.length := Nat.mul_le_mul_right _ (by omega)
      _ = 10 ^ (c :: t).length := by rw [List.length_cons, Nat.pow_succ, Nat.mul_comm]

/-- A run of ASCII digits denotes what it denotes as such. -/
theorem decimalsValue_of_isDigit {t : Text} (h : ∀ c ∈ t, c.isDigit = true) :
    t.decimalsValue = t.digitsValue := by
  have hfold (start : Nat) : t.foldl (fun n c => 10 * n + c.decimalValue) start =
      t.foldl (fun n c => 10 * n + c.digit?.getD 0) start := by
    apply List.foldl_ext
    intro n c hc
    rw [CodePoint.decimalValue_of_isDigit (h c hc)]
  exact hfold 0

/-- Zeros are zero. -/
theorem decimalsValue_replicate_zero (k : Nat) :
    decimalsValue (List.replicate k (0x30 : CodePoint)) = 0 := by
  induction k with
  | zero => rfl
  | succ k ih =>
    rw [List.replicate_succ]
    exact ih

/-! ### ASCII -/

/-- A text of ASCII characters alone. -/
def IsAscii (t : Text) : Prop := ∀ c ∈ t, c.val < 0x80

/-- Whether a text is ASCII can be decided. -/
instance (t : Text) : Decidable t.IsAscii :=
  List.decidableBAll (fun c : CodePoint => c.val < 0x80) t

/-- The empty text is ASCII. -/
@[simp] theorem isAscii_nil : IsAscii [] := List.forall_mem_nil _

/-- A text is ASCII exactly if its first code point and the rest are. -/
@[simp] theorem isAscii_cons {c : CodePoint} {t : Text} :
    IsAscii (c :: t) ↔ c.val < 0x80 ∧ t.IsAscii := List.forall_mem_cons

/-- Two texts in a row are ASCII exactly if both are. -/
@[simp] theorem isAscii_append {s t : Text} : IsAscii (s ++ t) ↔ s.IsAscii ∧ t.IsAscii :=
  List.forall_mem_append

/-- Of a run of digits it is the same to be ASCII as a text and to consist of ASCII digits. -/
theorem isAscii_iff_of_isDecimal {t : Text} (h : ∀ c ∈ t, c.isDecimal = true) :
    t.IsAscii ↔ ∀ c ∈ t, c.isDigit = true := by
  constructor
  · intro hascii c hc
    exact CodePoint.isDigit_of_isDecimal (h c hc) (hascii c hc)
  · intro hdigit c hc
    have hrange := CodePoint.isDigit_iff.mp (hdigit c hc)
    omega

/-! ### Fractions -/

/-- The fraction that a run of digits after a point denotes. -/
def fractionValue (t : Text) : ℚ := t.decimalsValue / 10 ^ t.length

/-- The first `n` digits of a fraction, the missing ones being zeros. -/
def firstDigits (n : Nat) (t : Text) : Text :=
  t.take n ++ List.replicate (n - (t.take n).length) (0x30 : CodePoint)

/-- The first digits are as many as asked for, filled up with zeros. -/
theorem length_firstDigits (n : Nat) (t : Text) : (firstDigits n t).length = n := by
  rw [firstDigits, List.length_append, List.length_replicate, List.length_take]
  omega

/-- A fraction with no more than `n` digits is so many `n`-th decimals as it has with zeros added. -/
theorem fractionValue_mul_pow {n : Nat} {t : Text} (h : t.length ≤ n) :
    t.fractionValue * 10 ^ n = (firstDigits n t).decimalsValue := by
  obtain ⟨k, rfl⟩ := Nat.exists_eq_add_of_le h
  rw [firstDigits, List.take_of_length_le h, Nat.add_sub_cancel_left, decimalsValue_append,
    decimalsValue_replicate_zero, List.length_replicate, fractionValue, pow_add]
  push_cast
  field_simp
  ring

/-- **Cutting.** The whole `n`-th decimals of a fraction are what its first `n` digits denote. -/
theorem floor_fractionValue (n : Nat) (t : Text) :
    ⌊t.fractionValue * 10 ^ n⌋ = ((firstDigits n t).decimalsValue : Int) := by
  obtain h | h := Nat.le_total t.length n
  · rw [fractionValue_mul_pow h]
    exact Int.floor_natCast _
  · -- The digits that are cut denote less than one of what is counted.
    obtain ⟨first, rest, rfl, rfl⟩ : ∃ first rest : Text, t = first ++ rest ∧ first.length = n :=
      ⟨t.take n, t.drop n, (List.take_append_drop n t).symm, List.length_take_of_le h⟩
    have hfirst : firstDigits first.length (first ++ rest) = first := by
      rw [firstDigits, List.take_left, Nat.sub_self, List.replicate_zero, List.append_nil]
    have hsplit : fractionValue (first ++ rest) * 10 ^ first.length =
        first.decimalsValue + rest.fractionValue := by
      rw [fractionValue, fractionValue, decimalsValue_append, List.length_append, pow_add]
      push_cast
      field_simp
    have hrest : rest.fractionValue < 1 := by
      rw [fractionValue, div_lt_one (by positivity)]
      exact_mod_cast rest.decimalsValue_lt
    have hnonneg : 0 ≤ rest.fractionValue := by
      unfold fractionValue
      positivity
    rw [hfirst, hsplit, Int.floor_eq_iff]
    push_cast
    constructor <;> linarith

end Text

end StreamConsumer
