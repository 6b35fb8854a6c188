/-!
# Binary64 numbers

A binary64 number is kept as the exact value it stands for: a sign, a significand and a power of
two, or an infinity. "Not a number" is no member: it stands for no value and equals nothing, so the
types that need it have it beside this one.

`Binary64.nearest` is the one way a number is made from a quotient of natural numbers: the nearest
representable value, of two equally near ones the one with an even significand, an infinity from
`2 ^ 1024 - 2 ^ 970` on.
-/

namespace StreamConsumer

/-- The natural number nearest to a quotient; a half goes to the even neighbour. -/
def roundDiv (num den : Nat) : Nat :=
  let q := num / den
  let r := num % den
  if 2 * r < den ∨ (2 * r = den ∧ q % 2 = 0) then q else q + 1

/-- A binary64 number other than "not a number". -/
inductive Binary64 where
  /-- The value `significand * 2 ^ exponent`, negated if `negative`; zero has a sign too. -/
  | finite (negative : Bool) (significand : Nat) (exponent : Int)
  /-- An infinity. -/
  | infinite (negative : Bool)
  deriving DecidableEq, Repr, Inhabited

namespace Binary64

/-! ### Rounding -/

/-- The numerator of `num / den / 2 ^ exponent`. -/
def scaledNum (num : Nat) (exponent : Int) : Nat := num * Nat.pow 2 (-exponent).toNat

/-- The denominator of `num / den / 2 ^ exponent`. -/
def scaledDen (den : Nat) (exponent : Int) : Nat := den * Nat.pow 2 exponent.toNat

/-- The least significand of 53 bits, `2 ^ 52`. -/
def leastFull : Nat := 4503599627370496

/-- The exponent at which the significand of a positive quotient has 53 bits, or the least exponent
there is if that is greater. -/
def exponentFor (num den : Nat) : Int :=
  let least : Int := (num.log2 : Int) - den.log2 - 53
  let exponent :=
    if scaledNum num least < 2 * leastFull * scaledDen den least then least else least + 1
  max exponent (-1074)

/-- The binary64 number nearest to a quotient, negated if `negative`. -/
def nearest (negative : Bool) (num den : Nat) : Binary64 :=
  if num = 0 then finite negative 0 (-1074)
  else
    let exponent := exponentFor num den
    let significand := roundDiv (scaledNum num exponent) (scaledDen den exponent)
    let (significand, exponent) :=
      if significand = 2 * leastFull then (leastFull, exponent + 1) else (significand, exponent)
    if exponent ≤ 971 then finite negative significand exponent else infinite negative

/-- The binary64 number nearest to a decimal, `digits * 10 ^ exponent`, negated if `negative`.
Beyond the two bounds the nearest number is infinite or zero whatever the digits are. -/
def ofDecimal (negative : Bool) (digits : Nat) (exponent : Int) : Binary64 :=
  if digits = 0 then finite negative 0 (-1074)
  else if 400 < exponent then infinite negative
  else if (digits.log2 : Int) + 1201 < -3 * exponent then finite negative 0 (-1074)
  else nearest negative (digits * Nat.pow 10 exponent.toNat) (Nat.pow 10 (-exponent).toNat)

/-! ### The value -/

/-- The numerator of a finite value over a power of two. -/
def numerator (negative : Bool) (significand : Nat) (exponent : Int) : Int :=
  let magnitude : Int := (significand * Nat.pow 2 exponent.toNat : Nat)
  if negative then -magnitude else magnitude

/-- The denominator of a finite value: a power of two. -/
def denominator (exponent : Int) : Nat := Nat.pow 2 (-exponent).toNat

/-- Equality of values: the two zeros are equal. -/
def sameValue : Binary64 → Binary64 → Bool
  | finite n m e, finite n' m' e' =>
    numerator n m e * denominator e' == numerator n' m' e' * denominator e
  | infinite n, infinite n' => n == n'
  | _, _ => false

/-- Whether the value is zero. -/
def isZero : Binary64 → Bool
  | finite _ m _ => m == 0
  | infinite _ => false

/-- The order of values. -/
def lt : Binary64 → Binary64 → Bool
  | finite n m e, finite n' m' e' =>
    numerator n m e * denominator e' < numerator n' m' e' * denominator e
  | finite _ _ _, infinite n' => !n'
  | infinite n, finite _ _ _ => n
  | infinite n, infinite n' => n && !n'

/-- An integer as a value to compare with; it is exact, whatever its size. -/
def ofIntExact (i : Int) : Binary64 := finite (i < 0) i.natAbs 0

end Binary64

end StreamConsumer
