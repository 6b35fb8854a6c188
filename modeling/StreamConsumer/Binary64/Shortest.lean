import StreamConsumer.Binary64.Basic
import StreamConsumer.Text.CodePoint

/-!
# The shortest decimal of a binary64 number

A binary64 number is shown by the fewest decimal digits that read back as that number, and of the
decimals that short by the nearest one. The reals that read back form an interval around the value,
which `Shortest.Interval` describes on one decimal grid; `shortestDecimal` looks for the first digit
count that has a decimal inside.

How digits become text is a choice of the format that writes them: `DecimalLayout`.
-/

namespace StreamConsumer

namespace Shortest

/-- A finite positive value and the interval that reads back as it, in quarters of
`10 ^ exponent`. -/
structure Interval where
  /-- The value, in whole units of `10 ^ exponent`. -/
  value : Nat
  /-- How far the interval reaches below the value, in quarters of a unit. -/
  below : Nat
  /-- How far the interval reaches above the value, in quarters of a unit. -/
  above : Nat
  /-- Whether the two ends belong to it. -/
  closed : Bool
  /-- The power of ten that the unit is. -/
  exponent : Int
  deriving Repr

/-- The interval of `significand * 2 ^ exponent`. At a power of two the numbers below lie half as
far apart as those above. -/
def intervalOf (significand : Nat) (exponent : Int) : Interval :=
  let unit := Nat.pow 2 exponent.toNat * Nat.pow 5 (-exponent).toNat
  { value := significand * unit
    below := if significand = Binary64.leastFull ∧ -1074 < exponent then unit else 2 * unit
    above := 2 * unit
    closed := significand % 2 = 0
    exponent := min exponent 0 }

/-- Whether a decimal in units lies in the interval. -/
def Interval.contains (i : Interval) (d : Nat) : Bool :=
  if i.closed then 4 * i.value ≤ 4 * d + i.below && 4 * d ≤ 4 * i.value + i.above
  else 4 * i.value < 4 * d + i.below && 4 * d < 4 * i.value + i.above

/-- The decimal in the interval that is a multiple of `step` units, counted in steps: the nearer of
the two neighbours of the value, of two equally near ones the even one. -/
def Interval.multiple? (i : Interval) (step : Nat) : Option Nat :=
  let low := i.value / step
  let rest := i.value % step
  let nearest := roundDiv i.value step
  if i.contains (nearest * step) then some nearest
  else
    let other := if nearest = low then low + 1 else low
    if rest ≠ 0 ∧ i.contains (other * step) then some other else none

/-- The first decimal found on the grids `10 ^ power`, `10 ^ (power - 1)`, … `1`. -/
def Interval.search (i : Interval) : Nat → Nat × Nat
  | 0 => (i.value, 0)
  | power + 1 =>
    match i.multiple? (Nat.pow 10 (power + 1)) with
    | some d => (d, power + 1)
    | none => i.search power

end Shortest

/-- The shortest decimal of a positive finite value, as `(digits, exponent)` for
`digits * 10 ^ exponent`. The digits do not end with zero: such a decimal lies on a coarser grid,
which was searched before. -/
def shortestDecimal (significand : Nat) (exponent : Int) : Nat × Int :=
  let i := Shortest.intervalOf significand exponent
  let length := (Text.ofNat i.value).length
  let (d, power) := i.search length
  (d, i.exponent + power)

/-- The choices a format makes when it writes the digits of a number. -/
structure DecimalLayout where
  /-- The least exponent of the first digit that is written by position. -/
  leastPositional : Int
  /-- The greatest exponent of the first digit that is written by position. -/
  greatestPositional : Int
  /-- The least number of digits of an exponent. -/
  exponentWidth : Nat
  deriving Repr, DecidableEq

namespace DecimalLayout

/-- An exponent with its sign. -/
def exponentText (l : DecimalLayout) (e : Int) : Text :=
  (if e < 0 then "e-" else "e+") ++ Text.ofNatPadded l.exponentWidth e.natAbs

/-- Digits whose first one stands for `10 ^ lead`. A whole number keeps one zero after the point. -/
def place (l : DecimalLayout) (digits : Text) (lead : Int) : Text :=
  if l.leastPositional ≤ lead ∧ lead ≤ l.greatestPositional then
    if lead < 0 then
      "0." ++ List.replicate (-lead - 1).toNat (0x30 : CodePoint) ++ digits
    else
      let whole := lead.toNat + 1
      let fraction := digits.drop whole
      digits.take whole ++ List.replicate (whole - digits.length) (0x30 : CodePoint) ++ "." ++
        (if fraction.isEmpty then [0x30] else fraction)
  else
    let fraction := digits.drop 1
    digits.take 1 ++ (if fraction.isEmpty then [] else 0x2E :: fraction) ++ l.exponentText lead

/-- A finite value. -/
def finite (l : DecimalLayout) (negative : Bool) (significand : Nat) (exponent : Int) : Text :=
  let sign : Text := if negative then "-" else ""
  if significand = 0 then sign ++ "0.0"
  else
    let (d, e) := shortestDecimal significand exponent
    let digits := Text.ofNat d
    sign ++ l.place digits (e + digits.length - 1)

end DecimalLayout

end StreamConsumer
