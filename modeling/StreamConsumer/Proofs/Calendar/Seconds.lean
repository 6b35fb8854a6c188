import Mathlib.Algebra.Order.Floor.Semifield
import StreamConsumer.Calendar.Duration
import StreamConsumer.Proofs.Binary64.Nearest

/-!
# Seconds rounded to microseconds

The microseconds of a number of seconds that need not be whole are told by `Duration.RoundsToMicros`:
the whole seconds count exactly, the fraction of a second times a million is rounded to the nearest
binary64 number and that one to the nearest natural number, a half to the even neighbour both times.
**Main statement** (`roundsToMicros_iff`): `Duration.microsOfSeconds` gives the microseconds for which
this holds, and it holds of no others.

The two roundings are not one: a fraction just below a half of a microsecond can become that half and
go to the even neighbour above.
-/

namespace StreamConsumer.Duration

/-- A number of seconds has so many microseconds once its fraction is rounded to binary64 and then to
whole microseconds. -/
def RoundsToMicros (s : ℚ) (n : ℕ) : Prop :=
  ∃ m e k, Binary64.IsNearest (1000000 * Int.fract s) m e ∧
    IsHalfEven (Binary64.magnitude m e) k ∧ n = 1000000 * ⌊s⌋₊ + k

/-- The microseconds of a negative number are those of its magnitude, negated. -/
theorem microsOfSeconds_eq (negative : Bool) (m : ℕ) (e : ℤ) :
    microsOfSeconds negative m e =
      if negative then -microsOfSeconds false m e else microsOfSeconds false m e := by
  cases negative <;> rfl

/-- The microseconds of a magnitude are a natural number. -/
theorem exists_microsOfSeconds (m : ℕ) (e : ℤ) : ∃ n : ℕ, microsOfSeconds false m e = n :=
  ⟨_, rfl⟩

/-- The fraction of a second has a number of microseconds, found by two roundings, and no other. -/
theorem exists_fraction {rest den : ℕ} (hrest : rest < den) :
    ∃ m e, Binary64.nearest false (rest * 1000000) den = .finite false m e ∧
      ∀ k, (∃ m' e', Binary64.IsNearest (1000000 * ((rest : ℚ) / den)) m' e' ∧
        IsHalfEven (Binary64.magnitude m' e') k) ↔
          roundDiv (m * Nat.pow 2 e.toNat) (Nat.pow 2 (-e).toNat) = k := by
  have hden : 0 < den := Nat.zero_lt_of_lt hrest
  have hscaled : (1000000 : ℚ) * (rest / den) = (rest * 1000000 : ℕ) / den := by
    push_cast
    ring
  have hsmall : ((rest * 1000000 : ℕ) : ℚ) / den < 2 ^ 20 := by
    have hpos : (0 : ℚ) < den := by exact_mod_cast hden
    have hlt : (rest : ℚ) / den < 1 := (div_lt_one hpos).mpr (by exact_mod_cast hrest)
    rw [← hscaled]
    linarith
  obtain ⟨m, e, hnearest, hspec, hunique⟩ :=
    Binary64.exists_nearest_eq_finite false (rest * 1000000) hden (by decide : 20 ≤ 1023) hsmall
  have hround : IsHalfEven (Binary64.magnitude m e)
      (roundDiv (m * Nat.pow 2 e.toNat) (Nat.pow 2 (-e).toNat)) := by
    rw [Binary64.magnitude_eq_div]
    exact isHalfEven_roundDiv _ (Nat.pow_pos two_pos)
  refine ⟨m, e, hnearest, fun k => ?_⟩
  rw [hscaled]
  constructor
  · rintro ⟨m', e', h, hk⟩
    rw [hunique h] at hk
    exact hk.unique hround
  · rintro rfl
    exact ⟨m, e, hspec, hround⟩

/-- **Seconds.** The microseconds that are counted for a number of seconds are those that the rule
names. -/
theorem roundsToMicros_iff {m : ℕ} {e : ℤ} {n : ℕ} :
    RoundsToMicros (Binary64.magnitude m e) n ↔ microsOfSeconds false m e = n := by
  have hden : 0 < Nat.pow 2 (-e).toNat := Nat.pow_pos two_pos
  obtain ⟨m', e', hnearest, hfraction⟩ := exists_fraction (Nat.mod_lt (m * Nat.pow 2 e.toNat) hden)
  rw [microsOfSeconds, if_neg Bool.false_ne_true, Nat.cast_inj, hnearest, Binary64.magnitude_eq_div,
    RoundsToMicros, Int.fract_div_natCast_eq_div_natCast_mod, Nat.floor_div_eq_div]
  simp only
  constructor
  · rintro ⟨m'', e'', k, h, hk, rfl⟩
    rw [(hfraction k).mp ⟨m'', e'', h, hk⟩, Nat.mul_comm]
  · rintro rfl
    obtain ⟨m'', e'', h, hk⟩ := (hfraction _).mpr rfl
    exact ⟨m'', e'', _, h, hk, by rw [Nat.mul_comm]⟩

/-- The number nearest to 3.5 millionths is less than these, and yet it counts as four microseconds. -/
example : 10000000 * 8264141345021879 < 35 * 2 ^ 71 ∧ microsOfSeconds false 8264141345021879 (-71) = 4 := by decide

end StreamConsumer.Duration
