import StreamConsumer.Calendar.Date
import StreamConsumer.Calendar.Duration

/-!
# Dates with a time of day

A `DateTime` is a date, a time of day in microseconds, and the offset of its clock from UTC, if that
is known. Those with an offset stand for an instant; those without are read as UTC wherever an
instant is asked for. `DateTime.toUtc` moves a `DateTime` to UTC, which fails only where the year
would leave 1 to 9999.
-/

namespace StreamConsumer

/-- A distance from UTC of less than a day. -/
structure UtcOffset where
  /-- The distance in microseconds, positive to the east. -/
  micros : Int
  neg_day_lt : -microsPerDay < micros
  lt_day : micros < microsPerDay
  deriving DecidableEq, Repr

namespace UtcOffset

/-- The offset of UTC itself. -/
def zero : UtcOffset := ⟨0, by decide, by decide⟩

/-- The offset of a number of microseconds, if it is less than a day. -/
def ofMicros? (micros : Int) : Option UtcOffset :=
  if h : -microsPerDay < micros ∧ micros < microsPerDay then some ⟨micros, h.1, h.2⟩ else none

/-- An offset is a span of time. -/
def toDuration (o : UtcOffset) : Duration :=
  ⟨o.micros, by have := o.neg_day_lt; simp only [microsPerDay, microsPerSecond] at *; omega,
    by have := o.lt_day; simp only [microsPerDay, microsPerSecond] at *; omega⟩

/-- Sign, hours and minutes, then the seconds and microseconds that are not zero. -/
def text (o : UtcOffset) : Text :=
  let n := o.micros.natAbs
  let sign : Text := if o.micros < 0 then "-" else "+"
  let second := n / 1000000 % 60
  let micro := n % 1000000
  let fraction : Text := if micro = 0 then [] else "." ++ Text.ofNatPadded 6 micro
  let seconds : Text :=
    if second = 0 ∧ micro = 0 then [] else ":" ++ Text.ofNatPadded 2 second ++ fraction
  sign ++ Text.ofNatPadded 2 (n / 3600000000) ++ ":" ++ Text.ofNatPadded 2 (n / 60000000 % 60) ++
    seconds

/-- Sign, hours and minutes alone. The seconds of the offset, rounded down, count as one more minute
from 30 on; the minutes are not carried into the hours. An offset of no whole second has no minus
sign. -/
def minuteText (o : UtcOffset) : Text :=
  let d := o.toDuration
  if d.seconds = 0 then "+00:00"
  else
    let seconds := if d.days = -1 then 86400 - d.seconds else d.seconds
    let sign : Text := if d.days = -1 then "-" else "+"
    let minutes := seconds / 60 % 60 + if 30 ≤ seconds % 60 then 1 else 0
    sign ++ Text.ofNatPadded 2 (seconds / 3600) ++ ":" ++ Text.ofNatPadded 2 minutes

/-- The zone of the offset. -/
def literal (o : UtcOffset) : Text :=
  if o.micros = 0 then "datetime.timezone.utc"
  else "datetime.timezone(" ++ o.toDuration.literal ++ ")"

end UtcOffset

/-- A date with a time of day and, if known, the distance of its clock from UTC. -/
structure DateTime where
  /-- The date on the clock. -/
  date : Date
  /-- The time on the clock, in microseconds since midnight. -/
  time : Fin 86400000000
  /-- The distance of the clock from UTC. -/
  offset : Option UtcOffset
  deriving DecidableEq, Repr

namespace DateTime

/-! ### The clock -/

/-- The hour, from 0 to 23. -/
def hour (d : DateTime) : Nat := d.time.val / 3600000000

/-- The minute of the hour. -/
def minute (d : DateTime) : Nat := d.time.val / 60000000 % 60

/-- The second of the minute. -/
def second (d : DateTime) : Nat := d.time.val / 1000000 % 60

/-- The microsecond of the second. -/
def microsecond (d : DateTime) : Nat := d.time.val % 1000000

/-- The time of day that a clock shows. -/
def timeOfClock (hour minute second microsecond : Nat) (hh : hour < 24) (hm : minute < 60)
    (hs : second < 60) (hu : microsecond < 1000000) : Fin 86400000000 :=
  ⟨((hour * 60 + minute) * 60 + second) * 1000000 + microsecond, by omega⟩

/-! ### Instants -/

/-- Microseconds since the start of year 1 in UTC; without an offset the clock is taken as UTC. -/
def instant (d : DateTime) : Int :=
  d.date.dayNumber * microsPerDay + d.time.val - (d.offset.map UtcOffset.micros).getD 0

/-- The clock in UTC at an instant, if its year is one from 1 to 9999. -/
def ofInstant? (instant : Int) : Option DateTime :=
  if h : 0 ≤ instant ∧ instant / microsPerDay < Calendar.dayCount then
    some
      { date := Date.ofDayNumber (instant / microsPerDay).toNat (by
          have : 0 ≤ instant / microsPerDay := Int.ediv_nonneg h.1 (by decide)
          omega)
        time := ⟨(instant % microsPerDay).toNat, by
          have := Int.emod_nonneg instant (b := microsPerDay) (by decide)
          have := Int.emod_lt_of_pos instant (b := microsPerDay) (by decide)
          have : microsPerDay = 86400000000 := by decide
          omega⟩
        offset := some UtcOffset.zero }
  else none

/-- The same instant on a clock in UTC. -/
def toUtc (d : DateTime) : Option DateTime := ofInstant? d.instant

/-! ### As text -/

/-- The date on the clock. -/
def dateText (d : DateTime) : Text :=
  Text.ofNatPadded 4 d.date.year ++ "-" ++ Text.ofNatPadded 2 d.date.month ++ "-" ++
    Text.ofNatPadded 2 d.date.day

/-- The time on the clock, with six decimals of the second unless it is whole. -/
def timeText (d : DateTime) : Text :=
  let fraction : Text := if d.microsecond = 0 then [] else "." ++ Text.ofNatPadded 6 d.microsecond
  Text.ofNatPadded 2 d.hour ++ ":" ++ Text.ofNatPadded 2 d.minute ++ ":" ++
    Text.ofNatPadded 2 d.second ++ fraction

/-- Date, time and the offset in full. -/
def text (d : DateTime) : Text :=
  d.dateText ++ " " ++ d.timeText ++ (d.offset.map UtcOffset.text).getD []

/-- Date, time and the offset to the minute. -/
def isoText (d : DateTime) : Text :=
  d.dateText ++ "T" ++ d.timeText ++ (d.offset.map UtcOffset.minuteText).getD []

/-- The parts by position, without trailing zero seconds, and the zone. -/
def literal (d : DateTime) : Text :=
  let seconds :=
    if d.microsecond ≠ 0 then [d.second, d.microsecond]
    else if d.second ≠ 0 then [d.second]
    else []
  let parts := [d.date.year, d.date.month, d.date.day, d.hour, d.minute] ++ seconds
  let zone := (d.offset.map fun o => ("tzinfo=" : Text) ++ o.literal).toList
  "datetime.datetime(" ++ Text.joined ", " (parts.map Text.ofNat ++ zone) ++ ")"

end DateTime

end StreamConsumer
