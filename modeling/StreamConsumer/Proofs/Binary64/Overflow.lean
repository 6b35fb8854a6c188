import StreamConsumer.Binary64.Basic

/-!
# Integers beyond the greatest number

The binary64 number nearest to an integer of more than 1024 bits is an infinity
(`nearest_eq_infinite`, `ofDecimal_eq_infinite`): the power of two at which its significand would have 53
bits is beyond the greatest one there is.
-/

namespace StreamConsumer.Binary64

variable {n : Nat}

/-- A number of so many bits is not zero. -/
theorem ne_zero_of_le_log2 (h : 1024 ≤ n.log2) : n ≠ 0 := by
  rintro rfl
  exact absurd h (by decide)

/-- An integer of more than 1024 bits needs a greater exponent than there is. -/
theorem lt_exponentFor (h : 1024 ≤ n.log2) : 971 < exponentFor n 1 := by
  obtain ⟨k, hk⟩ := Nat.exists_eq_add_of_le (show 53 ≤ n.log2 by omega)
  have hleast : (n.log2 : Int) - (Nat.log2 1 : Nat) - 53 = k := by
    rw [show Nat.log2 1 = 0 by decide]
    omega
  -- The lesser of the two exponents is for integers without the leading bit.
  have hfull : ¬ scaledNum n k < 2 * leastFull * scaledDen 1 k := by
    have hnum : scaledNum n k = n := by
      rw [scaledNum, Int.toNat_neg_natCast]
      exact Nat.mul_one n
    have hden : 2 * leastFull * scaledDen 1 k = 2 ^ n.log2 := by
      rw [scaledDen, hk, Nat.pow_add, Int.toNat_natCast, Nat.one_mul]
      rfl
    rw [hnum, hden]
    exact Nat.not_lt.mpr (Nat.log2_self_le (ne_zero_of_le_log2 h))
  rw [exponentFor]
  simp only [hleast, if_neg hfull]
  omega

/-- **Overflow.** An integer of more than 1024 bits rounds to an infinity. -/
theorem nearest_eq_infinite (negative : Bool) (h : 1024 ≤ n.log2) :
    nearest negative n 1 = infinite negative := by
  have hexponent := lt_exponentFor h
  rw [nearest, if_neg (ne_zero_of_le_log2 h)]
  simp only
  split <;> rw [if_neg (by simp only; omega)]

/-- So does its numeral without point and exponent. -/
theorem ofDecimal_eq_infinite (negative : Bool) (h : 1024 ≤ n.log2) :
    ofDecimal negative n 0 = infinite negative := by
  rw [ofDecimal, if_neg (ne_zero_of_le_log2 h), if_neg (by decide), if_neg (by omega)]
  exact (congrArg (nearest negative · 1) (Nat.mul_one n)).trans (nearest_eq_infinite negative h)

end StreamConsumer.Binary64
