import StreamConsumer.Calendar.DateTime
import StreamConsumer.Text.DecimalDigit
import StreamConsumer.Text.Quoted

/-!
# RFC 3339 timestamps

A timestamp is read in two steps. `Timestamp.shape?` splits it at its punctuation; decimal digits of
any script pass, and the letters may be in either case. `Timestamp.Shape.toDateTime` then asks for
ASCII digits, an offset below a day, a date that exists and a time that a clock shows, in this
order. Of the fraction only the first six digits are looked at.

`Timestamp.render` writes an instant in UTC.
-/

namespace StreamConsumer

/-- Why a text is no timestamp. -/
inductive TimestampError where
  /-- The punctuation is not that of a timestamp. -/
  | shape
  /-- A digit that counts is no ASCII digit; the parts that count are shown. -/
  | digits (parts : Text)
  /-- The offset is a day or more; it is given in microseconds. -/
  | offset (micros : Int)
  /-- There is no year 0. -/
  | year
  /-- There is no such month. -/
  | month
  /-- The month has no such day. -/
  | day
  /-- The day has no such hour. -/
  | hour
  /-- The hour has no such minute. -/
  | minute
  /-- The minute has no such second. -/
  | second
  deriving DecidableEq, Repr

namespace TimestampError

/-- What is reported of a source, given as it is shown. -/
def message (source : Text) : TimestampError → Text
  | shape => "invalid RFC3339 timestamp: " ++ source
  | digits parts => "Invalid isoformat string: " ++ Quoted.ofText parts
  | offset micros =>
    "offset must be a timedelta strictly between -timedelta(hours=24) and timedelta(hours=24), not " ++
      Duration.literalOf micros ++ "."
  | year => "year 0 is out of range"
  | month => "month must be in 1..12"
  | day => "day is out of range for month"
  | hour => "hour must be in 0..23"
  | minute => "minute must be in 0..59"
  | second => "second must be in 0..59"

end TimestampError

namespace Timestamp

/-! ### Shape -/

/-- A timestamp split at its punctuation. -/
structure Shape where
  /-- The digits of the year. -/
  year : Text
  /-- The digits of the month. -/
  month : Text
  /-- The digits of the day. -/
  day : Text
  /-- The digits of the hour. -/
  hour : Text
  /-- The digits of the minute. -/
  minute : Text
  /-- The digits of the second. -/
  second : Text
  /-- The digits after the point, if there are any. -/
  fraction : Text
  /-- Whether the offset is to the west. -/
  west : Bool
  /-- The digits of the hours of the offset. -/
  offsetHour : Text
  /-- The digits of the minutes of the offset. -/
  offsetMinute : Text
  deriving DecidableEq, Repr

/-- A run of exactly `n` decimal digits and what follows it. -/
def digits? (n : Nat) (s : Text) : Option (Text × Text) :=
  let run := s.take n
  if run.length = n ∧ run.all CodePoint.isDecimal then some (run, s.drop n) else none

/-- What follows a given code point. -/
def after? (c : CodePoint) : Text → Option Text
  | [] => none
  | d :: s => if d = c then some s else none

/-- What follows a letter given in upper case, which may be in lower case. -/
def afterLetter? (upper : CodePoint) : Text → Option Text
  | [] => none
  | d :: s => if d = upper ∨ d.val = upper.val + 0x20 then some s else none

/-- The digits after a point, if there is one, and what follows them. -/
def fraction? : Text → Option (Text × Text)
  | [] => some ([], [])
  | c :: s =>
    if c = 0x2E then
      let (run, rest) := s.span CodePoint.isDecimal
      if run.isEmpty then none else some (run, rest)
    else some ([], c :: s)

/-- The offset that ends a timestamp: direction, hours and minutes. The letter `Z` means none. -/
def offset? (s : Text) : Option (Bool × Text × Text) :=
  match afterLetter? 0x5A s with
  | some rest => if rest.isEmpty then some (false, "00", "00") else none
  | none =>
    match s with
    | [] => none
    | sign :: s =>
      if sign = 0x2B ∨ sign = 0x2D then do
        let (hour, s) ← digits? 2 s
        let s ← after? 0x3A s
        let (minute, s) ← digits? 2 s
        if s.isEmpty then some (sign = 0x2D, hour, minute) else none
      else none

/-- The parts of a timestamp, if the punctuation is right. -/
def shape? (s : Text) : Option Shape := do
  let (year, s) ← digits? 4 s
  let s ← after? 0x2D s
  let (month, s) ← digits? 2 s
  let s ← after? 0x2D s
  let (day, s) ← digits? 2 s
  let s ← afterLetter? 0x54 s
  let (hour, s) ← digits? 2 s
  let s ← after? 0x3A s
  let (minute, s) ← digits? 2 s
  let s ← after? 0x3A s
  let (second, s) ← digits? 2 s
  let (fraction, s) ← fraction? s
  let (west, offsetHour, offsetMinute) ← offset? s
  some { year, month, day, hour, minute, second, fraction, west, offsetHour, offsetMinute }

/-! ### Meaning -/

namespace Shape

/-- The six digits of the microsecond: later ones are cut off, missing ones are zeros. -/
def microDigits (p : Shape) : Text :=
  let digits := p.fraction.take 6
  digits ++ List.replicate (6 - digits.length) (0x30 : CodePoint)

/-- The digits that count. -/
def significant (p : Shape) : Text :=
  p.year ++ p.month ++ p.day ++ p.hour ++ p.minute ++ p.second ++ p.microDigits ++ p.offsetHour ++
    p.offsetMinute

/-- The parts that count, put together again. -/
def text (p : Shape) : Text :=
  let fraction : Text := if p.fraction.isEmpty then [] else "." ++ p.microDigits
  let sign : Text := if p.west then "-" else "+"
  p.year ++ "-" ++ p.month ++ "-" ++ p.day ++ "T" ++ p.hour ++ ":" ++ p.minute ++ ":" ++ p.second ++
    fraction ++ sign ++ p.offsetHour ++ ":" ++ p.offsetMinute

/-- The offset in microseconds. -/
def offsetMicros (p : Shape) : Int :=
  let seconds := p.offsetHour.digitsValue * 3600 + p.offsetMinute.digitsValue * 60
  let micros : Int := seconds * microsPerSecond
  if p.west then -micros else micros

/-- The date, if it exists. -/
def date (p : Shape) : Except TimestampError Date :=
  let year := p.year.digitsValue
  let month := p.month.digitsValue
  let day := p.day.digitsValue
  if hy : 1 ≤ year ∧ year ≤ 9999 then
    if hm : 1 ≤ month ∧ month ≤ 12 then
      if hd : 1 ≤ day ∧ day ≤ Calendar.daysInMonth year month then
        .ok ⟨year, month, day, hy.1, hy.2, hm.1, hm.2, hd.1, hd.2⟩
      else .error .day
    else .error .month
  else .error .year

/-- The time of day, if a clock shows it. -/
def time (p : Shape) : Except TimestampError (Fin 86400000000) :=
  let hour := p.hour.digitsValue
  let minute := p.minute.digitsValue
  let second := p.second.digitsValue
  let micro := p.microDigits.digitsValue
  if hh : hour < 24 then
    if hm : minute < 60 then
      if hs : second < 60 then
        if hu : micro < 1000000 then
          .ok (DateTime.timeOfClock hour minute second micro hh hm hs hu)
        else .error (.digits p.text)
      else .error .second
    else .error .minute
  else .error .hour

/-- The date and time that the parts denote. -/
def toDateTime (p : Shape) : Except TimestampError DateTime :=
  if p.significant.all CodePoint.isDigit then
    match UtcOffset.ofMicros? p.offsetMicros with
    | none => .error (.offset p.offsetMicros)
    | some offset => do
      let date ← p.date
      let time ← p.time
      return { date, time, offset := some offset }
  else .error (.digits p.text)

end Shape

/-- Reads a timestamp. -/
def parse (s : Text) : Except TimestampError DateTime :=
  match shape? s with
  | none => .error .shape
  | some p => p.toDateTime

/-- Writes the instant of a date and time, in UTC, if its year has four digits there. -/
def render (d : DateTime) : Option Text :=
  d.toUtc.map fun utc => utc.dateText ++ "T" ++ utc.timeText ++ "Z"

end Timestamp

end StreamConsumer
