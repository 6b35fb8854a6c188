import Mathlib.Data.Rat.Cast.Defs
import StreamConsumer.Value.Basic

/-!
# The numbers that values stand for

An integer, a truth value and a finite binary64 number stand for a rational number each,
`Value.rational?`. A value is equal to an integer by meaning exactly if that integer is the number it
stands for (`equal_int_iff`), whatever kind of value it is.
-/

namespace StreamConsumer

namespace Binary64

/-- The rational number that a finite binary64 number stands for. -/
def rational? : Binary64 → Option ℚ
  | finite negative significand exponent =>
    some (numerator negative significand exponent / denominator exponent)
  | infinite _ => none

/-- A denominator is a power of two. -/
theorem denominator_ne_zero (exponent : Int) : denominator exponent ≠ 0 :=
  Nat.ne_of_gt (Nat.two_pow_pos _)

/-- An integer has itself for a numerator and one for a denominator. -/
theorem numerator_ofIntExact (i : Int) : numerator (i < 0) i.natAbs 0 = i := by
  have hmagnitude : ((i.natAbs * Nat.pow 2 (0 : Int).toNat : Nat) : Int) = i.natAbs := by
    change ((i.natAbs * 1 : Nat) : Int) = i.natAbs
    rw [Nat.mul_one]
  simp only [numerator, hmagnitude]
  split
  · rename_i hneg
    have := of_decide_eq_true hneg
    omega
  · rename_i hneg
    have : ¬ i < 0 := fun h => hneg (decide_eq_true h)
    omega

/-- A number has the value of an integer exactly if it stands for it. -/
theorem sameValue_ofIntExact_iff (x : Binary64) (i : Int) :
    x.sameValue (ofIntExact i) = true ↔ x.rational? = some (i : ℚ) := by
  cases x with
  | infinite negative => exact iff_of_false (by simp [sameValue, ofIntExact]) (by simp [rational?])
  | finite negative significand exponent =>
    have hdenominator : (denominator exponent : ℚ) ≠ 0 :=
      Nat.cast_ne_zero.mpr (denominator_ne_zero exponent)
    have hone : denominator 0 = 1 := rfl
    rw [ofIntExact, sameValue, numerator_ofIntExact, hone, beq_iff_eq, Nat.cast_one, Int.mul_one,
      rational?, Option.some_inj, div_eq_iff hdenominator]
    constructor
    · intro h
      rw [h]
      push_cast
      rfl
    · intro h
      exact_mod_cast h

end Binary64

namespace Value

/-- The rational number that a value stands for. -/
def rational? (v : Value) : Option ℚ := v.number?.bind Binary64.rational?

/-- An integer is the number that it is. -/
@[simp] theorem rational?_int (i : Int) : (int i).rational? = some (i : ℚ) :=
  ((Binary64.ofIntExact i).sameValue_ofIntExact_iff i).mp (beq_self_eq_true _)

/-- **Equal numbers.** A value is equal to an integer exactly if it stands for it. -/
theorem equal_int_iff (v : Value) (i : Int) : v.equal (int i) = true ↔ v.rational? = some (i : ℚ) := by
  have hnumber (x : Binary64) : (int i).isNumber x = x.sameValue (.ofIntExact i) := rfl
  cases v with
  | bool b =>
    rw [equal, hnumber]
    exact Binary64.sameValue_ofIntExact_iff _ i
  | int j =>
    rw [equal, rational?_int, beq_iff_eq, Option.some_inj, Int.cast_inj]
  | float x =>
    rw [equal, hnumber]
    exact Binary64.sameValue_ofIntExact_iff x i
  | _ => simp [equal, rational?, number?, text?]

end Value

end StreamConsumer
