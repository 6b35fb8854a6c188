/-!
# Integers of 64 bits

The wire carries the integers that a 64-bit word can hold, with a sign or without one. Either reading
of the word is admitted, so the range is that of both together.
-/

namespace StreamConsumer

/-- The integers that a word of 64 bits can hold, with a sign or without: from `-2 ^ 63` to
`2 ^ 64 - 1`. -/
def FitsWord (n : Int) : Prop := -9223372036854775808 ≤ n ∧ n ≤ 18446744073709551615

/-- Whether an integer has 64 bits can be decided. -/
instance (n : Int) : Decidable (FitsWord n) := inferInstanceAs (Decidable (_ ∧ _))

end StreamConsumer
