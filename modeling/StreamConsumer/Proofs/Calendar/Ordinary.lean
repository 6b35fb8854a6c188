import Mathlib.Order.Bounds.Defs
import StreamConsumer.Proofs.Calendar.Spelling

/-!
# Ordinary timestamps

A timestamp is ordinary if it is ASCII, its date exists from the year 1 on, its clock is one of a day
with minutes of sixty seconds, and its offset has less than 24 hours and less than 60 minutes
(`Shape.InRange`). Its digits are ASCII digits then, all of them, and in no other case is a timestamp
ASCII (`Shape.IsSpelling.isAscii_iff`).

**Main statement** (`parse_of_inRange`): every ordinary timestamp is read, as the date and time that it
says, however many digits its fraction has. What stands after the sixth of them does not count
(`Shape.toDateTime_of_take_fraction`).
-/

namespace StreamConsumer.Timestamp

/-! ### Digits of ASCII -/

variable {t : Text}

/-- A run of digits is ASCII exactly if its digits are those of ASCII. -/
theorem IsRun.isAscii_iff {n : Nat} (h : IsRun n t) : t.IsAscii ↔ ∀ c ∈ t, c.isDigit = true :=
  Text.isAscii_iff_of_isDecimal h.2

/-- A letter in either case is ASCII. -/
theorem IsLetter.val_lt {upper letter : CodePoint} (h : IsLetter upper letter)
    (hupper : upper.val < 0x60) : letter.val < 0x80 := by
  obtain rfl | h := h <;> omega

/-- A fraction is ASCII exactly if its digits are those of ASCII. -/
theorem IsFraction.isAscii_iff {fraction : Text} (h : IsFraction t fraction) :
    t.IsAscii ↔ ∀ c ∈ fraction, c.isDigit = true := by
  cases h with
  | missing => exact iff_of_true Text.isAscii_nil (List.forall_mem_nil _)
  | point hne hdecimal =>
    rw [Text.isAscii_cons, and_iff_right (by decide)]
    exact Text.isAscii_iff_of_isDecimal hdecimal

/-- An offset is ASCII exactly if its digits are those of ASCII. -/
theorem IsZone.isAscii_iff {west : Bool} {hour minute : Text} (h : IsZone t west hour minute) :
    t.IsAscii ↔ (∀ c ∈ hour, c.isDigit = true) ∧ ∀ c ∈ minute, c.isDigit = true := by
  cases h with
  | utc hz =>
    have hascii : Text.IsAscii [_] :=
      Text.isAscii_cons.mpr ⟨hz.val_lt (by decide), Text.isAscii_nil⟩
    have hzero : ∀ c ∈ Text.ofString "00", c.isDigit = true := List.all_eq_true.mp (by decide)
    exact iff_of_true hascii ⟨hzero, hzero⟩
  | offset west hh hm =>
    have hsign : (if west then (0x2D : CodePoint) else 0x2B).val < 0x80 := by cases west <;> decide
    have hcolon : (0x3A : CodePoint).val < 0x80 := by decide
    rw [Text.isAscii_cons, Text.isAscii_append, Text.isAscii_cons, and_iff_right hsign,
      and_iff_right hcolon, hh.isAscii_iff, hm.isAscii_iff]

namespace Shape

variable {p : Shape}

/-- All the digits of the parts. -/
def digits (p : Shape) : Text :=
  p.year ++ p.month ++ p.day ++ p.hour ++ p.minute ++ p.second ++ p.fraction ++ p.offsetHour ++
    p.offsetMinute

/-- A timestamp is ASCII exactly if all of its digits are. -/
theorem IsSpelling.isAscii_iff (h : p.IsSpelling t) :
    t.IsAscii ↔ ∀ c ∈ p.digits, c.isDigit = true := by
  obtain ⟨hyear, hmonth, hday, hhour, hminute, hsecond, letter, f, zone, hletter, hf, hzone, rfl⟩ := h
  have hl := hletter.val_lt (by decide)
  simp only [Text.isAscii_append, Text.isAscii_cons, hyear.isAscii_iff, hmonth.isAscii_iff,
    hday.isAscii_iff, hhour.isAscii_iff, hminute.isAscii_iff, hsecond.isAscii_iff, hf.isAscii_iff,
    hzone.isAscii_iff, hl, digits, List.forall_mem_append]
  have hpunctuation : (0x2D : CodePoint).val < 0x80 ∧ (0x3A : CodePoint).val < 0x80 := by decide
  simp only [hpunctuation, true_and, and_assoc]

/-- The digits that count are the first six of the fraction and all the others. -/
theorem forall_mem_digits_iff : (∀ c ∈ p.digits, c.isDigit = true) ↔
    (∀ c ∈ p.significant, c.isDigit = true) ∧ ∀ c ∈ p.fraction.drop 6, c.isDigit = true := by
  have hzeros (n : Nat) : ∀ c ∈ List.replicate n (0x30 : CodePoint), c.isDigit = true := by
    intro c hc
    rw [List.eq_of_mem_replicate hc]
    decide
  have hmicro : (∀ c ∈ p.microDigits, c.isDigit = true) ↔
      ∀ c ∈ p.fraction.take 6, c.isDigit = true := by
    rw [microDigits, List.forall_mem_append, and_iff_left (hzeros _)]
  have hfraction : (∀ c ∈ p.fraction, c.isDigit = true) ↔
      (∀ c ∈ p.fraction.take 6, c.isDigit = true) ∧ ∀ c ∈ p.fraction.drop 6, c.isDigit = true := by
    rw [← List.forall_mem_append, List.take_append_drop]
  simp only [digits, significant, List.forall_mem_append, hfraction, hmicro]
  tauto

/-! ### Ranges -/

/-- The parts are in their ranges: there is such a day of such a month, there is such a time of a day
whose minutes have so many seconds, and the offset has less than 24 hours and less than 60 minutes. -/
structure InRange (p : Shape) (seconds : Nat) : Prop where
  /-- Months count from 1. -/
  one_le_month : 1 ≤ p.month.decimalsValue
  /-- There are twelve months. -/
  month_le : p.month.decimalsValue ≤ 12
  /-- Days count from 1. -/
  one_le_day : 1 ≤ p.day.decimalsValue
  /-- The month has such a day. -/
  day_le : p.day.decimalsValue ≤
    Calendar.daysInMonth p.year.decimalsValue p.month.decimalsValue
  /-- The day has such an hour. -/
  hour_lt : p.hour.decimalsValue < 24
  /-- The hour has such a minute. -/
  minute_lt : p.minute.decimalsValue < 60
  /-- The minute has such a second. -/
  second_lt : p.second.decimalsValue < seconds
  /-- The offset has less than 24 hours. -/
  offsetHour_lt : p.offsetHour.decimalsValue < 24
  /-- The offset has less than 60 minutes beyond its hours. -/
  offsetMinute_lt : p.offsetMinute.decimalsValue < 60

/-- The fraction has less than a million microseconds. -/
theorem microDigits_lt (p : Shape) : p.microDigits.decimalsValue < 1000000 := by
  have hlength : p.microDigits.length = 6 := Text.length_firstDigits 6 p.fraction
  have hlt := p.microDigits.decimalsValue_lt
  rwa [hlength] at hlt

/-- An offset in its range is less than a day. -/
theorem offsetSeconds_lt {seconds : Nat} (h : p.InRange seconds) :
    -86400 < p.offsetSeconds ∧ p.offsetSeconds < 86400 := by
  have hhour := h.offsetHour_lt
  have hminute := h.offsetMinute_lt
  simp only [offsetSeconds]
  split <;> omega

/-- Parts that are in their ranges are shown by a date and time. -/
theorem exists_isShownBy (hlength : p.year.length = 4) (hyear : 1 ≤ p.year.decimalsValue)
    (h : p.InRange 60) : ∃ u, p.IsShownBy u := by
  have hyear_lt := p.year.decimalsValue_lt
  rw [hlength] at hyear_lt
  have hmicro := p.microDigits_lt
  obtain ⟨hleast, hgreatest⟩ := offsetSeconds_lt h
  have hday : microsPerDay = 86400 * 1000000 := rfl
  let date : Date := ⟨p.year.decimalsValue, p.month.decimalsValue, p.day.decimalsValue, hyear,
    Nat.le_of_lt_succ hyear_lt, h.one_le_month, h.month_le, h.one_le_day, h.day_le⟩
  let time := DateTime.timeOfClock _ _ _ _ h.hour_lt h.minute_lt h.second_lt hmicro
  let offset : UtcOffset := ⟨p.offsetSeconds * 1000000, by omega, by omega⟩
  have htime : time.val = ((p.hour.decimalsValue * 60 + p.minute.decimalsValue) * 60 +
      p.second.decimalsValue) * 1000000 + p.microDigits.decimalsValue := rfl
  have hminute := h.minute_lt
  have hsecond := h.second_lt
  refine ⟨⟨date, time, some offset⟩, rfl, rfl, rfl, ?_, ?_, ?_, ?_, offset, rfl, rfl⟩
  · rw [DateTime.hour, htime]
    omega
  · rw [DateTime.minute, htime]
    omega
  · rw [DateTime.second, htime]
    omega
  · rw [floor_fraction, DateTime.microsecond, htime]
    omega

/-- Of the fraction the first six digits count, and whether there are any. -/
theorem toDateTime_of_take_fraction {fraction : Text} (h : fraction.take 6 = p.fraction.take 6) :
    { p with fraction }.toDateTime = p.toDateTime := by
  have hempty : fraction.isEmpty = p.fraction.isEmpty := by
    have hlength := congrArg List.length h
    rw [List.length_take, List.length_take] at hlength
    rw [Bool.eq_iff_iff, List.isEmpty_iff_length_eq_zero, List.isEmpty_iff_length_eq_zero]
    omega
  have hmicro : { p with fraction }.microDigits = p.microDigits := by
    simp only [microDigits, h]
  have hsignificant : { p with fraction }.significant = p.significant := by
    simp only [significant, hmicro]
  have htext : { p with fraction }.text = p.text := by
    simp only [text, hmicro, hempty]
  have htime : { p with fraction }.time = p.time := by
    simp only [time, hmicro, htext]
  rw [toDateTime, toDateTime, hsignificant, htext, htime]
  rfl

end Shape

/-! ### Ordinary timestamps are read -/

/-- **Ordinary timestamps.** They are read, and what they are read as shows their parts; it has the
greatest number of whole microseconds that is not beyond the instant they denote. With other digits
after the sixth of the fraction, or with none, they are read as the same. -/
theorem parse_of_inRange {p : Shape} (ht : p.IsSpelling t) (hascii : t.IsAscii)
    (hyear : 1 ≤ p.year.decimalsValue) (hp : p.InRange 60) :
    ∃ u, parse t = .ok u ∧ p.IsShownBy u ∧
      IsGreatest {n : Int | (n : ℚ) ≤ p.seconds * 1000000} u.instant ∧
      ∀ fraction t', fraction.take 6 = p.fraction.take 6 → { p with fraction }.IsSpelling t' →
        parse t' = .ok u := by
  obtain ⟨u, hu⟩ := Shape.exists_isShownBy ht.year.1 hyear hp
  have hdigits : ∀ c ∈ p.significant, c.isDigit = true :=
    (Shape.forall_mem_digits_iff.mp (ht.isAscii_iff.mp hascii)).1
  have hdenotes : p.toDateTime = .ok u := Shape.toDateTime_eq_ok_iff_isShownBy.mpr ⟨hdigits, hu⟩
  refine ⟨u, parse_eq_ok_iff.mpr ⟨p, ht, hdigits, hu⟩, hu, ?_, ?_⟩
  · rw [hu.instant_eq]
    exact ⟨Int.floor_le (p.seconds * 1000000), fun n hn => Int.le_floor.mpr hn⟩
  · intro fraction t' htake ht'
    rw [parse, shape?_eq_some_iff.mpr ht']
    exact (Shape.toDateTime_of_take_fraction htake).trans hdenotes

/-- The last microsecond of the leap day of a full century, and one digit more, on a clock far in the
west. -/
def lastOfLeapDay : Text := "2000-02-29t23:59:59.9999995-23:59"

/-- The parts that it consists of. -/
def lastOfLeapDayParts : Shape :=
  ⟨"2000", "02", "29", "23", "59", "59", "9999995", true, "23", "59"⟩

/-- The digit more is cut off and not rounded, so that the clock stays on that day. -/
theorem parse_of_inRange_leapDay : lastOfLeapDayParts.IsSpelling lastOfLeapDay ∧
    lastOfLeapDay.IsAscii ∧ 1 ≤ lastOfLeapDayParts.year.decimalsValue ∧
    lastOfLeapDayParts.InRange 60 ∧
    ∃ u, parse lastOfLeapDay = .ok u ∧ lastOfLeapDayParts.IsShownBy u ∧ u.date.day = 29 ∧
      u.microsecond = 999999 := by
  have hspelling : lastOfLeapDayParts.IsSpelling lastOfLeapDay :=
    shape?_eq_some_iff.mp (by decide +kernel)
  have hascii : lastOfLeapDay.IsAscii := by decide +kernel
  have hyear : 1 ≤ lastOfLeapDayParts.year.decimalsValue := by decide +kernel
  have hrange : lastOfLeapDayParts.InRange 60 := by
    constructor <;> decide +kernel
  obtain ⟨u, hu, hshown, -⟩ := parse_of_inRange hspelling hascii hyear hrange
  have hday : lastOfLeapDayParts.day.decimalsValue = 29 := by decide +kernel
  have hmicro : lastOfLeapDayParts.microDigits.decimalsValue = 999999 := by decide +kernel
  refine ⟨hspelling, hascii, hyear, hrange, u, hu, hshown, hshown.day.trans hday, ?_⟩
  have hshow := hshown.microsecond
  rw [Shape.floor_fraction, hmicro] at hshow
  exact_mod_cast hshow

end StreamConsumer.Timestamp
