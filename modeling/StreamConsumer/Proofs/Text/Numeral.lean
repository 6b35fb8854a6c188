import Mathlib.Algebra.Group.Nat.Defs
import StreamConsumer.Text.CodePoint

/-!
# Numerals read back

`Text.digitsValue` is a left inverse of `Text.ofNat`, padded or not (`digitsValue_ofNat`,
`digitsValue_ofNatPadded`), and `hexPadded` spells the low digits of a number in base sixteen
(`hexDigit?_hexDigit`, `hexPadded_four`). A numeral has digits only (`isDigit_of_mem_ofNat`) and as
many of them as the number needs (`length_ofNatPadded`); its first one is no zero unless the number
is (`ofNat_eq_cons`), which is what lets a reader find the end of a whole part. Conversely, digits
without a zero in front denote a number of at least as many bits (`length_le_log2_digitsValue`).
-/

namespace StreamConsumer

namespace CodePoint

/-- A digit is one of the ten code points from `0` to `9`. -/
theorem isDigit_iff {c : CodePoint} : c.isDigit = true ↔ 0x30 ≤ c.val ∧ c.val ≤ 0x39 := by
  unfold isDigit digit?
  split <;> simp_all

/-- Characters that count as digits are the digits among the code points. -/
theorem isDigit_ofChar {c : Char} (h : c.isDigit = true) : (ofChar c).isDigit = true := by
  simp only [Char.isDigit, Bool.and_eq_true, decide_eq_true_eq, UInt32.le_iff_toNat_le] at h
  exact isDigit_iff.mpr h

/-- The value of a digit is its distance from `0`. -/
theorem digit?_ofChar {c : Char} (h : c.isDigit = true) :
    (ofChar c).digit? = some (c.toNat - 48) := by
  have hd := isDigit_iff.mp (isDigit_ofChar h)
  rw [digit?, if_pos hd]
  rfl

end CodePoint

namespace Text

/-! ### Decimal numerals -/

/-- A numeral has digits only. -/
theorem isDigit_of_mem_ofNat {n : Nat} {c : CodePoint} (h : c ∈ ofNat n) : c.isDigit = true := by
  obtain ⟨k, hk, rfl⟩ := List.mem_map.mp h
  exact CodePoint.isDigit_ofChar (Nat.isDigit_of_mem_toDigits (by decide) (by decide) hk)

/-- A number has a digit. -/
theorem ofNat_ne_nil (n : Nat) : ofNat n ≠ [] := by
  simp [ofNat]

/-- Digits are read from the left: what stands before them counts as so many tens. -/
theorem foldl_digits_map (cs : List Char) (h : ∀ c ∈ cs, c.isDigit = true) (start : Nat) :
    (cs.map CodePoint.ofChar).foldl (fun n c => 10 * n + c.digit?.getD 0) start =
      Nat.ofDigitChars 10 cs start := by
  induction cs generalizing start with
  | nil => rfl
  | cons c cs ih =>
    rw [List.map_cons, List.foldl_cons, Nat.ofDigitChars_cons,
      CodePoint.digit?_ofChar (h c List.mem_cons_self),
      ih (fun k hk => h k (List.mem_cons_of_mem _ hk))]
    rfl

/-- **Reading a numeral.** The digits of a number denote it. -/
theorem digitsValue_ofNat (n : Nat) : digitsValue (ofNat n) = n := by
  have hd : ∀ c ∈ Nat.toDigits 10 n, c.isDigit = true := fun c hc =>
    Nat.isDigit_of_mem_toDigits (by decide) (by decide) hc
  rw [digitsValue, ofNat, foldl_digits_map _ hd, Nat.ofDigitChars_ten_toDigits]

/-- Zeros in front do not count. -/
theorem digitsValue_replicate_zero_append (k : Nat) (t : Text) :
    digitsValue (List.replicate k (0x30 : CodePoint) ++ t) = digitsValue t := by
  induction k with
  | zero => rfl
  | succ k ih =>
    rw [List.replicate_succ, List.cons_append]
    exact ih

/-- A padded number is read back. -/
theorem digitsValue_ofNatPadded (width n : Nat) : digitsValue (ofNatPadded width n) = n := by
  rw [ofNatPadded, padZero, digitsValue_replicate_zero_append, digitsValue_ofNat]

/-- A padded number has digits only. -/
theorem isDigit_of_mem_ofNatPadded {width n : Nat} {c : CodePoint} (h : c ∈ ofNatPadded width n) :
    c.isDigit = true := by
  rcases List.mem_append.mp h with h | h
  · rw [List.eq_of_mem_replicate h]
    decide
  · exact isDigit_of_mem_ofNat h

/-- Digits after a number count it as so many tens, at least. -/
theorem pow_mul_le_foldl_digits (t : Text) (start : Nat) :
    10 ^ t.length * start ≤ t.foldl (fun n c => 10 * n + c.digit?.getD 0) start := by
  induction t generalizing start with
  | nil => simp
  | cons c t ih =>
    calc 10 ^ (c :: t).length * start = 10 ^ t.length * (10 * start) := by
          rw [List.length_cons, Nat.pow_succ, Nat.mul_assoc]
      _ ≤ 10 ^ t.length * (10 * start + c.digit?.getD 0) :=
          Nat.mul_le_mul_left _ (Nat.le_add_right _ _)
      _ ≤ _ := ih _

/-- A number has at least as many bits as its numeral has digits, but for a zero in front. -/
theorem length_le_log2_digitsValue {c : CodePoint} {t : Text} (hc : c.isDigit = true)
    (h0 : c ≠ 0x30) : t.length ≤ (digitsValue (c :: t)).log2 := by
  obtain ⟨hleast, hgreatest⟩ := CodePoint.isDigit_iff.mp hc
  have hval : c.val ≠ 0x30 := fun hval => h0 (Fin.ext hval)
  have hfirst : 1 ≤ c.digit?.getD 0 := by
    rw [CodePoint.digit?, if_pos ⟨hleast, hgreatest⟩, Option.getD_some]
    omega
  have hpow : 2 ^ t.length ≤ digitsValue (c :: t) :=
    calc 2 ^ t.length ≤ 10 ^ t.length := Nat.pow_le_pow_left (by decide) _
      _ ≤ 10 ^ t.length * (10 * 0 + c.digit?.getD 0) := Nat.le_mul_of_pos_right _ (by omega)
      _ ≤ digitsValue (c :: t) := pow_mul_le_foldl_digits t _
  have hne : digitsValue (c :: t) ≠ 0 := by
    have := Nat.two_pow_pos t.length
    omega
  exact (Nat.le_log2 hne).mpr hpow

/-- A number needs no more than `width` digits exactly if it is below `10 ^ width`. -/
theorem length_ofNat_le_iff {width n : Nat} (hw : 0 < width) :
    (ofNat n).length ≤ width ↔ n < 10 ^ width := by
  rw [ofNat, List.length_map]
  exact Nat.length_toDigits_le_iff (by decide) hw

/-- A number below `10 ^ width` needs no more than `width` digits. -/
theorem length_ofNat_le {width n : Nat} (hw : 0 < width) (hn : n < 10 ^ width) :
    (ofNat n).length ≤ width := (length_ofNat_le_iff hw).mpr hn

/-- A number below `10 ^ width` has `width` digits once it is padded. -/
theorem length_ofNatPadded {width n : Nat} (hw : 0 < width) (hn : n < 10 ^ width) :
    (ofNatPadded width n).length = width := by
  have hle := length_ofNat_le hw hn
  simp only [ofNatPadded, padZero, List.length_append, List.length_replicate]
  omega

/-- A numeral of a given width: so many ASCII digits that denote the number. -/
structure IsNumeral (width n : Nat) (t : Text) : Prop where
  /-- There are so many digits. -/
  length : t.length = width
  /-- All of them are ASCII digits. -/
  digits : ∀ c ∈ t, c.isDigit = true
  /-- They denote the number. -/
  value : t.digitsValue = n

/-- A number is padded to a numeral. -/
theorem isNumeral_ofNatPadded {width n : Nat} (hw : 0 < width) (hn : n < 10 ^ width) :
    IsNumeral width n (ofNatPadded width n) :=
  ⟨length_ofNatPadded hw hn, fun _ hc => isDigit_of_mem_ofNatPadded hc, digitsValue_ofNatPadded width n⟩

/-- The first digit of a positive number is no zero. -/
theorem head_toDigits_ne_zero {n : Nat} (h : 0 < n) :
    ∀ c ∈ (Nat.toDigits 10 n).head?, c ≠ '0' := by
  induction n using Nat.strongRecOn with
  | ind n ih =>
    intro c hc
    rcases Nat.lt_or_ge n 10 with hlt | hge
    · rw [Nat.toDigits_of_lt_base hlt] at hc
      obtain rfl : n.digitChar = c := by simpa using hc
      intro h0
      have := Nat.toNat_digitChar_of_lt_ten hlt
      rw [h0] at this
      exact absurd this (by simp; omega)
    · rw [Nat.toDigits_of_base_le (by decide) hge] at hc
      refine ih (n / 10) (by omega) (by omega) c ?_
      obtain ⟨a, s, hs⟩ := List.exists_cons_of_ne_nil (Nat.toDigits_ne_nil (n := n / 10) (b := 10))
      simpa [hs] using hc

/-- A numeral is a lone zero or starts with a digit that is none. -/
theorem ofNat_eq_cons (n : Nat) :
    ofNat n = [0x30] ∨ ∃ c s, ofNat n = c :: s ∧ c ≠ 0x30 ∧ c.isDigit = true := by
  rcases Nat.eq_zero_or_pos n with rfl | hn
  · exact .inl (by decide)
  · right
    obtain ⟨c, s, hs⟩ := List.exists_cons_of_ne_nil (Nat.toDigits_ne_nil (n := n) (b := 10))
    have hne : c ≠ '0' := head_toDigits_ne_zero hn c (by simp [hs])
    refine ⟨.ofChar c, s.map CodePoint.ofChar, by simp [ofNat, hs], ?_, ?_⟩
    · intro h0
      have hv : c.toNat = 0x30 := congrArg Fin.val h0
      exact hne (Char.toNat_inj.mp hv)
    · exact isDigit_of_mem_ofNat (n := n) (by simp [ofNat, hs])

/-! ### Hexadecimal numerals -/

/-- A hexadecimal digit is read back. -/
theorem hexDigit?_hexDigit (n : Nat) : (hexDigit n).hexDigit? = some (n % 16) := by
  have key : ∀ k : Fin 16, (hexDigit k.val).hexDigit? = some k.val := by decide
  have h := key ⟨n % 16, Nat.mod_lt n (by decide)⟩
  rwa [show hexDigit (n % 16) = hexDigit n by simp [hexDigit]] at h

/-- The last four digits of a number in base sixteen, one by one. -/
theorem hexPadded_four (n : Nat) :
    hexPadded 4 n = [hexDigit (n / 16 / 16 / 16), hexDigit (n / 16 / 16), hexDigit (n / 16),
      hexDigit n] := rfl

end Text

end StreamConsumer
