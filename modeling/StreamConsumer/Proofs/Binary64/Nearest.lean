import Mathlib.Algebra.Order.Field.Power
import Mathlib.Data.Rat.Floor
import Mathlib.Tactic.FieldSimp
import Mathlib.Tactic.Linarith
import Mathlib.Tactic.Positivity
import Mathlib.Tactic.Push
import Mathlib.Tactic.Ring
import StreamConsumer.Binary64.Basic

/-!
# What rounding to the nearest number gives

`IsHalfEven` says which natural number a rational one is rounded to, and `Binary64.IsNearest` which
finite binary64 number, both by distances to all others and not by a computation. **Main statements**:
the natural number that `roundDiv` gives is that one (`isHalfEven_roundDiv`), of which there is no
other (`IsHalfEven.unique`), and so it is with the binary64 number that `Binary64.nearest` gives
(`Binary64.exists_nearest_eq_finite`).

Between two powers of two the binary64 numbers lie on a grid, and at the exponent of that grid the
rounding of a quotient is one to natural numbers. Numbers with a greater exponent lie on the grid as
well, those with a lesser one are below all of it that is near (`Binary64.InScale.rival`).
-/

namespace StreamConsumer

/-! ### To natural numbers -/

/-- A natural number is no further than a half from a value, and it is even at exactly a half. -/
structure IsHalfEven (x : ℚ) (k : ℕ) : Prop where
  /-- The distance is a half or less. -/
  near : |x - k| ≤ 1 / 2
  /-- A half goes to the even neighbour. -/
  even : |x - k| = 1 / 2 → Even k

namespace IsHalfEven

variable {x : ℚ} {k j : ℕ}

/-- Two natural numbers are no further apart than a value is from both together. -/
theorem abs_sub_le_add (x : ℚ) (j k : ℕ) : |(k : ℚ) - j| ≤ |x - j| + |x - k| := by
  have hsplit : (k : ℚ) - j = (x - j) - (x - k) := by ring
  rw [hsplit]
  exact abs_sub _ _

/-- Different natural numbers are at least one apart, and so a value is from both together. -/
theorem one_le_abs_add_abs (x : ℚ) (h : j ≠ k) : 1 ≤ |x - j| + |x - k| := by
  have hint : 1 ≤ |(k : ℤ) - j| := Int.one_le_abs (by omega)
  have hone : (1 : ℚ) ≤ |(k : ℚ) - j| := by exact_mod_cast hint
  exact hone.trans (abs_sub_le_add x j k)

/-- No natural number is nearer. -/
theorem le_abs_sub (h : IsHalfEven x k) (j : ℕ) : |x - k| ≤ |x - j| := by
  by_cases hj : j = k
  · rw [hj]
  · have hone := one_le_abs_add_abs x hj
    have hnear := h.near
    linarith

/-- Another one that is as near is a neighbour, and it is odd. -/
theorem tie (h : IsHalfEven x k) (hj : j ≠ k) (hle : |x - j| ≤ |x - k|) : Even k ∧ ¬ Even j := by
  have hone := one_le_abs_add_abs x hj
  have hnear := h.near
  have hhalf : |x - k| = 1 / 2 := by linarith
  have hhalf' : |x - j| = 1 / 2 := by linarith
  have heven := h.even hhalf
  refine ⟨heven, fun hodd => ?_⟩
  have htwo : |(k : ℚ) - j| ≤ 1 := (abs_sub_le_add x j k).trans (by linarith)
  have hint : |(k : ℤ) - j| ≤ 1 := by exact_mod_cast htwo
  obtain ⟨a, rfl⟩ := heven
  obtain ⟨b, rfl⟩ := hodd
  rw [abs_le] at hint
  omega

/-- A value is rounded to one natural number only. -/
theorem unique (h : IsHalfEven x k) (h' : IsHalfEven x j) : j = k := by
  by_contra hne
  exact (h.tie hne (h'.le_abs_sub k)).2 (h'.tie (Ne.symm hne) (h.le_abs_sub j)).1

end IsHalfEven

/-- **Rounding to natural numbers.** The natural number nearest to a quotient is found, and of two the
even one. -/
theorem isHalfEven_roundDiv (num : ℕ) {den : ℕ} (hden : 0 < den) :
    IsHalfEven ((num : ℚ) / den) (roundDiv num den) := by
  have hpos : (0 : ℚ) < den := by exact_mod_cast hden
  have hlt := Nat.mod_lt num hden
  have hdiv : (num : ℚ) / den = (num / den : ℕ) + (num % den : ℕ) / den := by
    have hnum : (num : ℚ) = den * (num / den : ℕ) + (num % den : ℕ) := by
      exact_mod_cast (Nat.div_add_mod num den).symm
    rw [hnum]
    field_simp
  rw [hdiv, roundDiv]
  generalize num / den = q
  generalize num % den = r at *
  have hrest : (0 : ℚ) ≤ r / den := by positivity
  split
  · rename_i h
    have habs : |(q : ℚ) + r / den - q| = r / den := by
      rw [add_sub_cancel_left, abs_of_nonneg hrest]
    constructor
    · rw [habs, div_le_div_iff₀ hpos two_pos]
      exact_mod_cast (by omega : r * 2 ≤ 1 * den)
    · intro heq
      rw [habs, div_eq_div_iff hpos.ne' two_ne_zero] at heq
      have hhalf : r * 2 = 1 * den := by exact_mod_cast heq
      exact Nat.even_iff.mpr (by omega)
  · rename_i h
    have habs : |(q : ℚ) + r / den - (q + 1 : ℕ)| = (den - r : ℕ) / den := by
      have hsub : (q : ℚ) + r / den - (q + 1 : ℕ) = -((den - r : ℕ) / den) := by
        rw [Nat.cast_sub hlt.le]
        push_cast
        field_simp
        ring
      rw [hsub, abs_neg, abs_of_nonneg (by positivity)]
    constructor
    · rw [habs, div_le_div_iff₀ hpos two_pos]
      exact_mod_cast (by omega : (den - r) * 2 ≤ 1 * den)
    · intro heq
      rw [habs, div_eq_div_iff hpos.ne' two_ne_zero] at heq
      have hhalf : (den - r) * 2 = 1 * den := by exact_mod_cast heq
      exact Nat.even_iff.mpr (by omega)

namespace Binary64

/-! ### To binary64 numbers -/

/-- The value of a significand and an exponent. -/
def magnitude (m : ℕ) (e : ℤ) : ℚ := m * 2 ^ e

/-- A significand and an exponent of the format: 53 bits, of which the first is set unless the
exponent is the least one. -/
structure InFormat (m : ℕ) (e : ℤ) : Prop where
  /-- The significand has 53 bits or less. -/
  lt : m < 2 ^ 53
  /-- The exponent is not below the least one. -/
  least_le : -1074 ≤ e
  /-- The exponent is not above the greatest one. -/
  le_greatest : e ≤ 971
  /-- The significand has no fewer bits where a lesser exponent would do. -/
  full : 2 ^ 52 ≤ m ∨ e = -1074

/-- A number of the format is as near to a value as any, and if another one is as near, its
significand is even. -/
structure IsNearest (q : ℚ) (m : ℕ) (e : ℤ) : Prop where
  /-- It is a number of the format. -/
  inFormat : InFormat m e
  /-- No other is nearer. -/
  le : ∀ {m' e'}, InFormat m' e' → |q - magnitude m e| ≤ |q - magnitude m' e'|
  /-- Of two that are equally near it is the even one. -/
  even : ∀ {m' e'}, InFormat m' e' → magnitude m' e' ≠ magnitude m e →
    |q - magnitude m' e'| = |q - magnitude m e| → Even m

/-- The exponent is the one at which a value has 53 bits before the point, or the least one there is
if it has fewer there. -/
structure InScale (q : ℚ) (e : ℤ) : Prop where
  /-- The exponent is not below the least one. -/
  least_le : -1074 ≤ e
  /-- There are 53 bits or less. -/
  lt : q < 2 ^ 53 * 2 ^ e
  /-- There are no fewer, unless the exponent is the least one. -/
  full : 2 ^ 52 * 2 ^ e ≤ q ∨ e = -1074

variable {q : ℚ} {e e' : ℤ} {m m' s : ℕ}

/-- A power of two is positive. -/
theorem zpow_two_pos (e : ℤ) : (0 : ℚ) < 2 ^ e := zpow_pos two_pos e

/-- The distance of a value to a multiple of a power of two, told in that power. -/
theorem abs_sub_mul_zpow (q : ℚ) (k : ℕ) (e : ℤ) : |q - k * 2 ^ e| = |q / 2 ^ e - k| * 2 ^ e := by
  have hpos := zpow_two_pos e
  rw [← abs_of_pos hpos, ← abs_mul, abs_of_pos hpos, sub_mul, div_mul_cancel₀ _ hpos.ne']

/-- On the grid of a power of two no place is nearer than the one that is rounded to. -/
theorem abs_sub_mul_zpow_le (hs : IsHalfEven (q / 2 ^ e) s) (k : ℕ) :
    |q - s * 2 ^ e| ≤ |q - k * 2 ^ e| := by
  rw [abs_sub_mul_zpow, abs_sub_mul_zpow]
  exact mul_le_mul_of_nonneg_right (hs.le_abs_sub k) (zpow_two_pos e).le

/-- A number of a greater exponent is a multiple of the power of two at a lesser one. -/
theorem magnitude_eq_mul_zpow (m : ℕ) (h : e ≤ e') :
    magnitude m e' = (m * 2 ^ (e' - e).toNat : ℕ) * 2 ^ e := by
  obtain ⟨n, rfl⟩ := Int.le.dest h
  rw [magnitude, add_sub_cancel_left, Int.toNat_natCast, zpow_add₀ two_ne_zero, zpow_natCast]
  push_cast
  ring

/-- Any number of the format lies on the grid of the scale, at an odd place only as itself, or it is
further away than what the value is rounded to there. -/
theorem InScale.rival (hscale : InScale q e) (hs : IsHalfEven (q / 2 ^ e) s) (h : InFormat m' e') :
    (∃ k : ℕ, magnitude m' e' = k * 2 ^ e ∧ (¬ Even k → k = m')) ∨
      |q - s * 2 ^ e| < |q - magnitude m' e'| := by
  rcases le_or_gt e e' with hle | hlt
  · refine .inl ⟨_, magnitude_eq_mul_zpow m' hle, fun hodd => ?_⟩
    have hzero : (e' - e).toNat = 0 := by
      by_contra hne
      exact hodd ((Nat.even_pow.mpr ⟨even_two, hne⟩).mul_left m')
    rw [hzero, pow_zero, mul_one]
  · right
    have hfull : 2 ^ 52 * 2 ^ e ≤ q := hscale.full.resolve_right (by have := h.least_le; omega)
    have hbelow : magnitude m' e' < 2 ^ 52 * 2 ^ e := by
      have hm : (m' : ℚ) < 2 ^ 53 := by exact_mod_cast h.lt
      calc magnitude m' e' < 2 ^ 53 * 2 ^ e' := mul_lt_mul_of_pos_right hm (zpow_two_pos e')
        _ ≤ 2 ^ 53 * 2 ^ (e - 1) := by
          refine mul_le_mul_of_nonneg_left ?_ (by positivity)
          exact zpow_le_zpow_right₀ one_le_two (by omega)
        _ = 2 ^ 52 * 2 ^ e := by
          rw [zpow_sub_one₀ two_ne_zero]
          ring
    have hcorner : |q - s * 2 ^ e| ≤ q - 2 ^ 52 * 2 ^ e := by
      have hle := abs_sub_mul_zpow_le hs (2 ^ 52)
      rwa [Nat.cast_pow, Nat.cast_ofNat, abs_of_nonneg (sub_nonneg.mpr hfull)] at hle
    exact hcorner.trans_lt (by linarith [le_abs_self (q - magnitude m' e')])

/-- What a value is rounded to on the grid of its scale is the nearest number of the format, and every
nearest one has its value. -/
theorem InScale.isNearest (hscale : InScale q e) (hs : IsHalfEven (q / 2 ^ e) s)
    (hformat : InFormat m e') (hvalue : magnitude m e' = s * 2 ^ e) (heven : Even s → Even m) :
    IsNearest q m e' ∧ ∀ {m'' e''}, IsNearest q m'' e'' → magnitude m'' e'' = magnitude m e' := by
  have hgrid {k : ℕ} : |q - k * 2 ^ e| ≤ |q - s * 2 ^ e| ↔ |q / 2 ^ e - k| ≤ |q / 2 ^ e - s| := by
    rw [abs_sub_mul_zpow, abs_sub_mul_zpow, mul_le_mul_iff_left₀ (zpow_two_pos e)]
  have hne {k : ℕ} (h : (k : ℚ) * 2 ^ e ≠ s * 2 ^ e) : k ≠ s := fun hk => h (by rw [hk])
  constructor
  · refine ⟨hformat, ?_, ?_⟩
    · intro m'' e'' h
      rw [hvalue]
      obtain ⟨k, hk, -⟩ | hfar := hscale.rival hs h
      · rw [hk]
        exact abs_sub_mul_zpow_le hs k
      · exact hfar.le
    · intro m'' e'' h hother htie
      rw [hvalue] at hother htie
      obtain ⟨k, hk, -⟩ | hfar := hscale.rival hs h
      · rw [hk] at hother htie
        exact heven (hs.tie (hne hother) (hgrid.mp htie.le)).1
      · exact absurd htie hfar.ne'
  · intro m'' e'' h
    by_contra hother
    have hle := h.le hformat
    rw [hvalue] at hother hle
    obtain ⟨k, hk, hodd⟩ | hfar := hscale.rival hs h.inFormat
    · rw [hk] at hother hle
      obtain ⟨-, hk'⟩ := hs.tie (hne hother) (hgrid.mp hle)
      obtain rfl := hodd hk'
      have hback := abs_sub_mul_zpow_le hs k
      rw [← hk, ← hvalue] at hback
      rw [← hk, ← hvalue] at hle hother
      exact hk' (h.even hformat (Ne.symm hother) (hback.antisymm hle))
    · exact absurd hle (not_le.mpr hfar)

/-! ### The scale of a quotient -/

variable {num den : ℕ}

/-- A power of two as the quotient of two with natural exponents, of which one is zero. -/
theorem zpow_eq_div (e : ℤ) : (2 : ℚ) ^ e = (2 ^ e.toNat : ℕ) / (2 ^ (-e).toNat : ℕ) := by
  have he : e = (e.toNat : ℤ) - ((-e).toNat : ℤ) := by omega
  conv_lhs => rw [he]
  rw [zpow_sub₀ two_ne_zero, zpow_natCast, zpow_natCast]
  push_cast
  rfl

/-- So a value is its numerator over its denominator. -/
theorem magnitude_eq_div (m : ℕ) (e : ℤ) :
    magnitude m e = (m * Nat.pow 2 e.toNat : ℕ) / (Nat.pow 2 (-e).toNat : ℕ) := by
  rw [magnitude, zpow_eq_div, Nat.cast_mul, mul_div_assoc]
  rfl

/-- The scaled numerator over the scaled denominator is the quotient over the power of two. -/
theorem scaledNum_div_scaledDen (num den : ℕ) (e : ℤ) :
    (scaledNum num e : ℚ) / scaledDen den e = num / den / 2 ^ e := by
  rw [zpow_eq_div, scaledNum, scaledDen]
  push_cast [Nat.pow_eq]
  field_simp

/-- A scaled denominator is positive. -/
theorem scaledDen_pos (hden : 0 < den) (e : ℤ) : 0 < scaledDen den e :=
  Nat.mul_pos hden (Nat.pow_pos two_pos)

/-- A quotient lies between the two powers of two next to the difference of its logarithms. -/
theorem quotient_bounds (hnum : num ≠ 0) (hden : 0 < den) :
    (2 : ℚ) ^ ((num.log2 : ℤ) - den.log2 - 1) < num / den ∧
      (num : ℚ) / den < 2 ^ ((num.log2 : ℤ) - den.log2 + 1) := by
  have hpos : (0 : ℚ) < den := by exact_mod_cast hden
  have hnumLow : (2 : ℚ) ^ num.log2 ≤ num := by exact_mod_cast Nat.log2_self_le hnum
  have hnumHigh : (num : ℚ) < 2 ^ (num.log2 + 1) := by exact_mod_cast Nat.lt_log2_self
  have hdenLow : (2 : ℚ) ^ den.log2 ≤ den := by exact_mod_cast Nat.log2_self_le hden.ne'
  have hdenHigh : (den : ℚ) < 2 ^ (den.log2 + 1) := by exact_mod_cast Nat.lt_log2_self
  constructor
  · rw [lt_div_iff₀ hpos]
    calc (2 : ℚ) ^ ((num.log2 : ℤ) - den.log2 - 1) * den
        < 2 ^ ((num.log2 : ℤ) - den.log2 - 1) * 2 ^ (den.log2 + 1) :=
          mul_lt_mul_of_pos_left hdenHigh (zpow_two_pos _)
      _ = 2 ^ num.log2 := by
        rw [← zpow_natCast, ← zpow_add₀ two_ne_zero, ← zpow_natCast]
        congr 1
        omega
      _ ≤ num := hnumLow
  · rw [div_lt_iff₀ hpos]
    calc (num : ℚ) < 2 ^ (num.log2 + 1) := hnumHigh
      _ = 2 ^ ((num.log2 : ℤ) - den.log2 + 1) * 2 ^ den.log2 := by
        rw [← zpow_natCast, ← zpow_natCast, ← zpow_add₀ two_ne_zero]
        congr 1
        omega
      _ ≤ 2 ^ ((num.log2 : ℤ) - den.log2 + 1) * den :=
        mul_le_mul_of_nonneg_left hdenLow (zpow_two_pos _).le

/-- The exponent for a quotient is that of its scale. -/
theorem inScale_exponentFor (hnum : num ≠ 0) (hden : 0 < den) :
    InScale ((num : ℚ) / den) (exponentFor num den) := by
  obtain ⟨hlow, hhigh⟩ := quotient_bounds hnum hden
  rw [exponentFor]
  generalize hleast : (num.log2 : ℤ) - den.log2 - 53 = least
  rw [show (num.log2 : ℤ) - den.log2 - 1 = least + 52 by omega] at hlow
  rw [show (num.log2 : ℤ) - den.log2 + 1 = least + 54 by omega] at hhigh
  rw [zpow_add₀ two_ne_zero] at hlow hhigh
  have htest : scaledNum num least < 2 * leastFull * scaledDen den least ↔
      (num : ℚ) / den < 2 ^ 53 * 2 ^ least := by
    have hpos : (0 : ℚ) < scaledDen den least := by exact_mod_cast scaledDen_pos hden least
    rw [← div_lt_iff₀ (zpow_two_pos least), ← scaledNum_div_scaledDen, div_lt_iff₀ hpos]
    exact_mod_cast Iff.rfl
  -- before the least exponent there is comes in
  obtain ⟨e, he, hlt, hfull⟩ : ∃ e,
      (if scaledNum num least < 2 * leastFull * scaledDen den least then least else least + 1) = e ∧
        (num : ℚ) / den < 2 ^ 53 * 2 ^ e ∧ 2 ^ 52 * 2 ^ e ≤ (num : ℚ) / den := by
    split
    · rename_i h
      refine ⟨least, rfl, htest.mp h, ?_⟩
      linarith
    · rename_i h
      have hle := not_lt.mp (mt htest.mpr h)
      refine ⟨least + 1, rfl, ?_, ?_⟩
      · rw [zpow_add_one₀ two_ne_zero]
        linarith
      · rw [zpow_add_one₀ two_ne_zero]
        linarith
  simp only [he]
  refine ⟨le_max_right _ _, hlt.trans_le ?_, ?_⟩
  · exact mul_le_mul_of_nonneg_left (zpow_le_zpow_right₀ one_le_two (le_max_left _ _)) (by positivity)
  · rcases le_total (-1074) e with h | h
    · rw [max_eq_left h]
      exact .inl hfull
    · exact .inr (max_eq_right h)

/-- In a scale of which the exponent is not the least, the value is rounded to 53 bits or to the least
power of two with more. -/
theorem InScale.round_bounds (hscale : InScale q e) (hs : IsHalfEven (q / 2 ^ e) s) :
    s ≤ 2 ^ 53 ∧ (2 ^ 52 ≤ s ∨ e = -1074) := by
  have hpos := zpow_two_pos e
  have hnear := abs_le.mp hs.near
  constructor
  · have hlt := (div_lt_iff₀ hpos).mpr hscale.lt
    have hs' : (s : ℚ) < (2 ^ 53 + 1 : ℕ) := by
      push_cast
      linarith
    exact Nat.lt_succ_iff.mp (by exact_mod_cast hs')
  · refine hscale.full.imp_left fun hfull => ?_
    have hle := (le_div_iff₀ hpos).mpr hfull
    have hs' : ((2 ^ 52 : ℕ) : ℚ) < (s + 1 : ℕ) := by
      push_cast
      linarith
    exact Nat.lt_succ_iff.mp (by exact_mod_cast hs')

/-- Zero is the nearest number to itself, and there is no other. -/
theorem isNearest_zero : IsNearest 0 0 (-1074) ∧
    ∀ {m e}, IsNearest 0 m e → magnitude m e = magnitude 0 (-1074) := by
  have hzero : magnitude 0 (-1074) = 0 := by simp [magnitude]
  have hformat : InFormat 0 (-1074) := ⟨by decide, le_rfl, by decide, .inr rfl⟩
  refine ⟨⟨hformat, fun _ => ?_, fun _ _ _ => ⟨0, rfl⟩⟩, fun h => ?_⟩
  · rw [hzero, sub_zero, abs_zero]
    exact abs_nonneg _
  · have hle := h.le hformat
    rw [hzero, sub_zero, abs_zero, zero_sub, abs_neg] at hle
    rw [hzero]
    exact abs_nonpos_iff.mp hle

/-- **Rounding to binary64.** The number nearest to a quotient below `2 ^ 1023` is found, and of two
the even one; any other nearest number has the same value. -/
theorem exists_nearest_eq_finite (negative : Bool) (num : ℕ) (hden : 0 < den) {width : ℕ}
    (hwidth : width ≤ 1023) (hsmall : (num : ℚ) / den < 2 ^ width) :
    ∃ m e, nearest negative num den = finite negative m e ∧ IsNearest ((num : ℚ) / den) m e ∧
      ∀ {m' e'}, IsNearest ((num : ℚ) / den) m' e' → magnitude m' e' = magnitude m e := by
  by_cases hnum : num = 0
  · subst hnum
    refine ⟨0, -1074, if_pos rfl, ?_⟩
    rw [Nat.cast_zero, zero_div]
    exact isNearest_zero
  have hscale := inScale_exponentFor hnum hden
  rw [nearest, if_neg hnum]
  generalize exponentFor num den = e at *
  have hs := isHalfEven_roundDiv (scaledNum num e) (scaledDen_pos hden e)
  rw [scaledNum_div_scaledDen] at hs
  simp only
  generalize roundDiv (scaledNum num e) (scaledDen den e) = s at *
  obtain ⟨hle, hfull⟩ := hscale.round_bounds hs
  have hgreatest : e ≤ 970 := by
    rcases hscale.full with h | h
    · have hlt : (2 : ℚ) ^ (52 + e) < 2 ^ (width : ℤ) := by
        rw [zpow_add₀ two_ne_zero, zpow_natCast]
        exact h.trans_lt hsmall
      have := (zpow_lt_zpow_iff_right₀ one_lt_two).mp hlt
      omega
    · omega
  by_cases hcarry : s = 2 * leastFull
  · rw [if_pos hcarry, if_pos (by simp only; omega)]
    refine ⟨leastFull, e + 1, rfl, hscale.isNearest hs ⟨by decide, ?_, ?_, .inl (by decide)⟩ ?_
      fun _ => by decide⟩
    · have := hscale.least_le
      omega
    · omega
    · rw [hcarry, magnitude, zpow_add_one₀ two_ne_zero]
      push_cast
      ring
  · rw [if_neg hcarry, if_pos (by simp only; omega)]
    have hlt : s < 2 ^ 53 := lt_of_le_of_ne hle hcarry
    exact ⟨s, e, rfl, hscale.isNearest hs ⟨hlt, hscale.least_le, by omega, hfull⟩ rfl id⟩

end Binary64

end StreamConsumer
