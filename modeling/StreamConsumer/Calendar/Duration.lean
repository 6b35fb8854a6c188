import StreamConsumer.Binary64.Basic
import StreamConsumer.Text.CodePoint

/-!
# Durations

A `Duration` is a whole number of microseconds whose days, counted downwards, number at most
999999999 in either direction. `Duration.ofMicros` is the checked constructor; the wire carries
nanoseconds, `Duration.nanoseconds`.

A number of seconds that is not whole is taken apart first: the whole seconds count exactly, the
fraction is scaled to microseconds in binary64 arithmetic and then rounded, a half to the even
neighbour (`Duration.microsOfSeconds`).
-/

namespace StreamConsumer

/-- The microseconds of a second. -/
def microsPerSecond : Int := 1000000

/-- The microseconds of a day. -/
def microsPerDay : Int := 86400 * microsPerSecond

/-- Why a number of microseconds is no duration. -/
inductive DurationError where
  /-- The days are more than a duration can have. -/
  | days (count : Int)
  /-- The days are more than 32 bits can count. -/
  | width
  /-- The number of seconds was infinite. -/
  | infinite
  deriving DecidableEq, Repr

namespace DurationError

/-- What is reported. -/
def message : DurationError → Text
  | days count => "days=" ++ Text.ofInt count ++ "; must have magnitude <= 999999999"
  | width => "Python int too large to convert to C int"
  | infinite => "cannot convert float infinity to integer"

end DurationError

/-- A span of time. -/
structure Duration where
  /-- Its length in microseconds. -/
  micros : Int
  least_le : -999999999 * microsPerDay ≤ micros
  lt_greatest : micros < 1000000000 * microsPerDay
  deriving DecidableEq, Repr

namespace Duration

/-! ### Parts -/

/-- The whole days of a number of microseconds, rounded down. -/
def daysOf (micros : Int) : Int := micros / microsPerDay

/-- The whole seconds beyond the days. -/
def secondsOf (micros : Int) : Nat := (micros % microsPerDay / microsPerSecond).toNat

/-- The microseconds beyond the seconds. -/
def microsecondsOf (micros : Int) : Nat := (micros % microsPerSecond).toNat

/-- The whole days of a duration, rounded down. -/
def days (d : Duration) : Int := daysOf d.micros

/-- The whole seconds of a duration beyond its days. -/
def seconds (d : Duration) : Nat := secondsOf d.micros

/-- The microseconds of a duration beyond its seconds. -/
def microseconds (d : Duration) : Nat := microsecondsOf d.micros

/-- The length in nanoseconds. -/
def nanoseconds (d : Duration) : Int :=
  (d.days * 86400 + d.seconds) * 1000000000 + d.microseconds * 1000

/-! ### Construction -/

/-- The duration of a number of microseconds. -/
def ofMicros (micros : Int) : Except DurationError Duration :=
  if h : -999999999 * microsPerDay ≤ micros ∧ micros < 1000000000 * microsPerDay then
    .ok ⟨micros, h.1, h.2⟩
  else
    let count := daysOf micros
    if -2147483648 ≤ count ∧ count < 2147483648 then .error (.days count) else .error .width

/-- The duration of a number of whole seconds. -/
def ofSeconds (seconds : Int) : Except DurationError Duration := ofMicros (seconds * microsPerSecond)

/-- The microseconds of a finite number of seconds. -/
def microsOfSeconds (negative : Bool) (significand : Nat) (exponent : Int) : Int :=
  let whole := significand * Nat.pow 2 exponent.toNat / Nat.pow 2 (-exponent).toNat
  let rest := significand * Nat.pow 2 exponent.toNat % Nat.pow 2 (-exponent).toNat
  let fraction :=
    match Binary64.nearest false (rest * 1000000) (Nat.pow 2 (-exponent).toNat) with
    | .finite _ m e => roundDiv (m * Nat.pow 2 e.toNat) (Nat.pow 2 (-e).toNat)
    | .infinite _ => 0
  let magnitude : Int := (whole * 1000000 + fraction : Nat)
  if negative then -magnitude else magnitude

/-- The duration of a number of seconds in binary64. -/
def ofBinary64 : Binary64 → Except DurationError Duration
  | .finite negative significand exponent => ofMicros (microsOfSeconds negative significand exponent)
  | .infinite _ => .error .infinite

/-! ### As text -/

/-- The named parts of a number of microseconds that are not zero, or `0`. -/
def literalOf (micros : Int) : Text :=
  let part (name : Text) (n : Int) : List Text :=
    if n = 0 then [] else [name ++ "=" ++ Text.ofInt n]
  let parts := part "days" (daysOf micros) ++ part "seconds" (secondsOf micros) ++
    part "microseconds" (microsecondsOf micros)
  let body : Text := if parts.isEmpty then "0" else Text.joined ", " parts
  "datetime.timedelta(" ++ body ++ ")"

/-- The named parts of a duration. -/
def literal (d : Duration) : Text := literalOf d.micros

/-- Clock notation, after the days if there are any. -/
def clockText (d : Duration) : Text :=
  let unit : Text := if d.days.natAbs = 1 then " day, " else " days, "
  let days : Text := if d.days = 0 then [] else Text.ofInt d.days ++ unit
  let fraction : Text := if d.microseconds = 0 then [] else "." ++ Text.ofNatPadded 6 d.microseconds
  days ++ Text.ofNat (d.seconds / 3600) ++ ":" ++ Text.ofNatPadded 2 (d.seconds / 60 % 60) ++ ":" ++
    Text.ofNatPadded 2 (d.seconds % 60) ++ fraction

end Duration

end StreamConsumer
