import Mathlib.Data.List.GetD
import Mathlib.Data.List.TakeDrop
import StreamConsumer.Calendar.Timestamp
import StreamConsumer.Proofs.Outcome
import StreamConsumer.Proofs.Text.Numeral

/-!
# Timestamps read back

What `Timestamp.render` writes is read by `Timestamp.parse` as the same instant on a clock in UTC,
`parse_of_render`. The text is a row of digits between punctuation; `shape?_assembled` splits any such
row, whatever the digits are. Parts denote the date and time that has their date, their time and their
offset, if all three exist (`Shape.toDateTime_eq_ok_iff`), and so those of a clock in UTC denote that
clock, `toDateTime_utc`.

An instant has a clock in UTC exactly within the years 1 to 9999, `ofInstant?_isSome`, and that clock
shows it, `instant_of_ofInstant?`.
-/

namespace StreamConsumer

/-- The ASCII digits are decimal digits. -/
theorem CodePoint.isDecimal_of_isDigit {c : CodePoint} (h : c.isDigit = true) :
    c.isDecimal = true := by
  rw [isDigit_iff] at h
  refine List.any_eq_true.mpr ⟨0x30, List.mem_cons_self, ?_⟩
  simp only [Bool.and_eq_true, decide_eq_true_eq]
  omega

/-- An offset is made from the microseconds that it has, and from no others. -/
theorem UtcOffset.ofMicros?_eq_some_iff {m : Int} {o : UtcOffset} :
    ofMicros? m = some o ↔ o.micros = m := by
  constructor
  · intro h
    unfold ofMicros? at h
    split at h
    · obtain rfl := Option.some.inj h
      rfl
    · cases h
  · rintro rfl
    rw [ofMicros?, dif_pos ⟨o.neg_day_lt, o.lt_day⟩]

namespace Calendar

/-- No month has more than 31 days. -/
theorem daysInMonth_le (year month : Nat) : daysInMonth year month ≤ 31 := by
  have hall : ∀ n ∈ monthLengths year, n ≤ 31 := by
    intro n hn
    simp only [monthLengths, List.mem_cons, List.not_mem_nil, or_false] at hn
    split at hn <;> omega
  unfold daysInMonth
  rcases Nat.lt_or_ge (month - 1) (monthLengths year).length with h | h
  · rw [List.getD_eq_getElem _ _ h]
    exact hall _ (List.getElem_mem h)
  · rw [List.getD_eq_default _ _ h]
    omega

end Calendar

/-- The year of a date has no more than four digits, its month and its day no more than two. -/
theorem Date.lt_pow (d : Date) : d.year < 10 ^ 4 ∧ d.month < 10 ^ 2 ∧ d.day < 10 ^ 2 := by
  have hyear := d.year_le
  have hmonth := d.month_le
  have hday := Nat.le_trans d.day_le (Calendar.daysInMonth_le d.year d.month)
  omega

/-! ### Clocks in UTC -/

namespace DateTime

/-- The clock in UTC at an instant shows that instant. -/
theorem instant_of_ofInstant? {i : Int} {u : DateTime} (h : ofInstant? i = some u) :
    u.instant = i ∧ u.offset = some UtcOffset.zero := by
  unfold ofInstant? at h
  split at h
  · rename_i hi
    obtain rfl := Option.some.inj h
    have hday : 0 ≤ i / microsPerDay := Int.ediv_nonneg hi.1 (by decide)
    have hmod : 0 ≤ i % microsPerDay := Int.emod_nonneg i (by decide)
    refine ⟨?_, rfl⟩
    simp only [instant, Date.dayNumber_ofDayNumber, Option.map_some, Option.getD_some,
      UtcOffset.zero]
    rw [Int.toNat_of_nonneg hday, Int.toNat_of_nonneg hmod, Int.sub_zero, Int.mul_comm]
    exact Int.mul_ediv_add_emod i microsPerDay
  · simp at h

/-- A clock in UTC shows the instants of the years 1 to 9999 and no others. -/
theorem ofInstant?_isSome (i : Int) :
    (ofInstant? i).isSome = true ↔ 0 ≤ i ∧ i < Calendar.dayCount * microsPerDay := by
  have hdiv : i / microsPerDay < Calendar.dayCount ↔ i < Calendar.dayCount * microsPerDay :=
    Int.ediv_lt_iff_lt_mul (by decide)
  unfold ofInstant?
  rw [← hdiv]
  split
  · rename_i hi
    exact iff_of_true rfl hi
  · rename_i hi
    exact iff_of_false (by simp) hi

/-- The instant is one of the years 1 to 9999 in UTC. -/
def HasUtc (d : DateTime) : Prop := 0 ≤ d.instant ∧ d.instant < Calendar.dayCount * microsPerDay

/-- Whether UTC can tell a date can be decided. -/
instance (d : DateTime) : Decidable d.HasUtc := inferInstanceAs (Decidable (_ ∧ _))

/-- UTC can tell a date exactly if its instant is in the years 1 to 9999. -/
theorem toUtc_isSome (d : DateTime) : d.toUtc.isSome = true ↔ d.HasUtc := ofInstant?_isSome d.instant

end DateTime

namespace Timestamp

/-! ### Splitting a row of digits -/

/-- A run of so many decimal digits. -/
def IsRun (n : Nat) (t : Text) : Prop := t.length = n ∧ ∀ c ∈ t, c.isDecimal = true

/-- A padded number is a run of as many digits. -/
theorem isRun_ofNatPadded {width n : Nat} (hw : 0 < width) (hn : n < 10 ^ width) :
    IsRun width (Text.ofNatPadded width n) :=
  ⟨Text.length_ofNatPadded hw hn, fun _ hc =>
    CodePoint.isDecimal_of_isDigit (Text.isDigit_of_mem_ofNatPadded hc)⟩

/-- A run of digits is found before anything else. -/
theorem digits?_append {n : Nat} {t : Text} (h : IsRun n t) (rest : Text) :
    digits? n (t ++ rest) = some (t, rest) := by
  have htake : (t ++ rest).take n = t := by rw [← h.1, List.take_left]
  have hdrop : (t ++ rest).drop n = rest := by rw [← h.1, List.drop_left]
  rw [digits?]
  simp only [htake, hdrop]
  rw [if_pos ⟨h.1, List.all_eq_true.mpr h.2⟩]

/-- A code point is passed where it stands. -/
theorem after?_cons (c : CodePoint) (rest : Text) : after? c (c :: rest) = some rest := by
  rw [after?, if_pos rfl]

/-- So is a capital letter. -/
theorem afterLetter?_cons (c : CodePoint) (rest : Text) :
    afterLetter? c (c :: rest) = some rest := by
  rw [afterLetter?, if_pos (.inl rfl)]

/-- No point, no fraction. -/
theorem fraction?_of_ne {c : CodePoint} (h : c ≠ 0x2E) (rest : Text) :
    fraction? (c :: rest) = some ([], c :: rest) := by
  rw [fraction?, if_neg h]

/-- The fraction is all the digits after the point. -/
theorem fraction?_point {n : Nat} {t : Text} (h : IsRun (n + 1) t) {c : CodePoint}
    (hc : c.isDecimal = false) (rest : Text) :
    fraction? (0x2E :: (t ++ c :: rest)) = some (t, c :: rest) := by
  have hspan : (t ++ c :: rest).span CodePoint.isDecimal = (t, c :: rest) := by
    rw [List.span_eq_takeWhile_dropWhile, List.takeWhile_append_of_pos h.2,
      List.dropWhile_append_of_pos h.2, List.takeWhile_cons_of_neg (by simp [hc]),
      List.dropWhile_cons_of_neg (by simp [hc]), List.append_nil]
  have hne : t ≠ [] := by
    rintro rfl
    exact absurd h.1 (by simp)
  rw [fraction?]
  simp only [if_true, hspan, List.isEmpty_iff, if_neg hne]

/-- **Splitting.** Digits between the punctuation of date and time are found, whatever they are,
whichever letter separates date and time and whatever fraction and offset follow. -/
theorem shape?_assembled {year month day hour minute second : Text} (hy : IsRun 4 year)
    (hmo : IsRun 2 month) (hd : IsRun 2 day) (hh : IsRun 2 hour) (hmi : IsRun 2 minute)
    (hs : IsRun 2 second) {letter : CodePoint}
    (hl : ∀ rest, afterLetter? 0x54 (letter :: rest) = some rest) {fraction tail : Text} {west : Bool}
    {offsetHour offsetMinute rest : Text} (hf : fraction? tail = some (fraction, rest))
    (ho : offset? rest = some (west, offsetHour, offsetMinute)) :
    shape? (year ++ 0x2D :: (month ++ 0x2D :: (day ++ letter :: (hour ++ 0x3A :: (minute ++
        0x3A :: (second ++ tail)))))) =
      some { year, month, day, hour, minute, second, fraction, west, offsetHour, offsetMinute } := by
  simp only [shape?, bind, Option.bind, digits?_append hy, digits?_append hmo, digits?_append hd,
    digits?_append hh, digits?_append hmi, digits?_append hs, after?_cons, hl, hf, ho]

/-! ### What the parts denote -/

/-- What a clock shows is below 24, 60, 60 and a million. -/
theorem clock_lt (d : DateTime) :
    d.hour < 24 ∧ d.minute < 60 ∧ d.second < 60 ∧ d.microsecond < 1000000 := by
  have := d.time.isLt
  simp only [DateTime.hour, DateTime.minute, DateTime.second, DateTime.microsecond]
  omega

namespace Shape

variable {p : Shape}

/-- The parts denote the date with their year, month and day, if there is one. -/
theorem date_eq_ok_iff {d : Date} : p.date = .ok d ↔ d.year = p.year.digitsValue ∧
    d.month = p.month.digitsValue ∧ d.day = p.day.digitsValue := by
  constructor
  · intro h
    unfold date at h
    simp only at h
    split at h
    · split at h
      · split at h
        · obtain rfl := Except.ok.inj h
          exact ⟨rfl, rfl, rfl⟩
        · cases h
      · cases h
    · cases h
  · rintro ⟨hyear, hmonth, hday⟩
    simp only [date, ← hyear, ← hmonth, ← hday]
    rw [dif_pos ⟨d.one_le_year, d.year_le⟩, dif_pos ⟨d.one_le_month, d.month_le⟩,
      dif_pos ⟨d.one_le_day, d.day_le⟩]

/-- The parts denote the time at which a clock shows them, if there is one. -/
theorem time_eq_ok_iff {u : DateTime} : p.time = .ok u.time ↔ u.hour = p.hour.digitsValue ∧
    u.minute = p.minute.digitsValue ∧ u.second = p.second.digitsValue ∧
    u.microsecond = p.microDigits.digitsValue := by
  constructor
  · intro h
    unfold time at h
    simp only at h
    split at h
    · split at h
      · split at h
        · split at h
          · have hval := congrArg Fin.val (Except.ok.inj h)
            simp only [DateTime.timeOfClock] at hval
            simp only [DateTime.hour, DateTime.minute, DateTime.second, DateTime.microsecond]
            omega
          · cases h
        · cases h
      · cases h
    · cases h
  · rintro ⟨hhour, hminute, hsecond, hmicro⟩
    obtain ⟨hh, hmi, hs, hu⟩ := clock_lt u
    simp only [time, ← hhour, ← hminute, ← hsecond, ← hmicro]
    rw [dif_pos hh, dif_pos hmi, dif_pos hs, dif_pos hu]
    refine congrArg Except.ok (Fin.ext ?_)
    simp only [DateTime.timeOfClock, DateTime.hour, DateTime.minute, DateTime.second,
      DateTime.microsecond]
    omega

/-- The parts denote a date and time that has their date, their time and their offset, if the digits
that count are ASCII. -/
theorem toDateTime_eq_ok_iff {u : DateTime} : p.toDateTime = .ok u ↔
    p.significant.all CodePoint.isDigit = true ∧ p.date = .ok u.date ∧ p.time = .ok u.time ∧
      ∃ o, u.offset = some o ∧ o.micros = p.offsetMicros := by
  constructor
  · intro h
    unfold toDateTime at h
    split at h
    · rename_i hdigits
      split at h
      · cases h
      · rename_i o ho
        obtain ⟨date, hdate, h⟩ := Except.bind_eq_ok_iff.mp h
        obtain ⟨time, htime, h⟩ := Except.bind_eq_ok_iff.mp h
        obtain rfl := Except.ok.inj h
        exact ⟨hdigits, hdate, htime, o, rfl, UtcOffset.ofMicros?_eq_some_iff.mp ho⟩
    · cases h
  · rintro ⟨hdigits, hdate, htime, o, ho, hmicros⟩
    rw [toDateTime, if_pos hdigits, UtcOffset.ofMicros?_eq_some_iff.mpr hmicros]
    simp only [hdate, htime, bind, Except.bind, pure, Except.pure]
    rw [← ho]

end Shape

/-! ### The parts of a clock in UTC -/

/-- The digits after the point on a clock: six, or none where the second is whole. -/
def fractionOf (d : DateTime) : Text :=
  if d.microsecond = 0 then [] else Text.ofNatPadded 6 d.microsecond

/-- The parts as which the clock of a date and time is written in UTC. -/
def utcShape (d : DateTime) : Shape where
  year := Text.ofNatPadded 4 d.date.year
  month := Text.ofNatPadded 2 d.date.month
  day := Text.ofNatPadded 2 d.date.day
  hour := Text.ofNatPadded 2 d.hour
  minute := Text.ofNatPadded 2 d.minute
  second := Text.ofNatPadded 2 d.second
  fraction := fractionOf d
  west := false
  offsetHour := "00"
  offsetMinute := "00"

/-- The letter for UTC is an offset of zero. -/
theorem offset?_utc :
    offset? [0x5A] = some (false, Text.ofString "00", Text.ofString "00") := by
  decide

/-- **Splitting what was written.** The text of a clock in UTC is split into the parts it was written
from. -/
theorem shape?_utc (d : DateTime) :
    shape? (d.dateText ++ "T" ++ d.timeText ++ "Z") = some (utcShape d) := by
  obtain ⟨hyear, hmonth, hday⟩ := d.date.lt_pow
  obtain ⟨hh, hmi, hs, hu⟩ := clock_lt d
  have hrun {n : Nat} (hn : n < 100) : IsRun 2 (Text.ofNatPadded 2 n) :=
    isRun_ofNatPadded (by decide) hn
  have hfraction : fraction? ((if d.microsecond = 0 then [] else
      Text.ofString "." ++ Text.ofNatPadded 6 d.microsecond) ++ [0x5A]) =
      some (fractionOf d, [0x5A]) := by
    unfold fractionOf
    split
    · exact fraction?_of_ne (by decide) []
    · exact fraction?_point (isRun_ofNatPadded (by decide) hu) (by decide) []
  have hyearRun : IsRun 4 (Text.ofNatPadded 4 d.date.year) := isRun_ofNatPadded (by decide) hyear
  have hmonthRun : IsRun 2 (Text.ofNatPadded 2 d.date.month) := hrun hmonth
  have hdayRun : IsRun 2 (Text.ofNatPadded 2 d.date.day) := hrun hday
  have hhourRun : IsRun 2 (Text.ofNatPadded 2 d.hour) := hrun (by omega)
  have hminuteRun : IsRun 2 (Text.ofNatPadded 2 d.minute) := hrun (by omega)
  have hsecondRun : IsRun 2 (Text.ofNatPadded 2 d.second) := hrun (by omega)
  refine Eq.trans (congrArg shape? ?_) (shape?_assembled hyearRun hmonthRun hdayRun hhourRun
    hminuteRun hsecondRun (afterLetter?_cons 0x54) hfraction offset?_utc)
  simp only [DateTime.dateText, DateTime.timeText, List.append_assoc]
  rfl

/-- The six digits of the microsecond denote it. -/
theorem digitsValue_microDigits_utc (d : DateTime) :
    (utcShape d).microDigits.digitsValue = d.microsecond := by
  simp only [Shape.microDigits, utcShape, fractionOf]
  split
  · rename_i h0
    rw [h0]
    decide
  · have hlen : (Text.ofNatPadded 6 d.microsecond).length = 6 :=
      Text.length_ofNatPadded (by decide) (clock_lt d).2.2.2
    rw [List.take_of_length_le (by omega), hlen, Nat.sub_self, List.replicate_zero, List.append_nil,
      Text.digitsValue_ofNatPadded]

/-- A padded number has ASCII digits only. -/
theorem all_isDigit_ofNatPadded (width n : Nat) :
    (Text.ofNatPadded width n).all CodePoint.isDigit = true :=
  List.all_eq_true.mpr fun _ hc => Text.isDigit_of_mem_ofNatPadded hc

/-- The microseconds of a date in UTC are spelled with ASCII digits only. -/
theorem all_isDigit_microDigits_utc (d : DateTime) :
    (utcShape d).microDigits.all CodePoint.isDigit = true := by
  have hzero (n : Nat) : (List.replicate n (0x30 : CodePoint)).all CodePoint.isDigit = true :=
    List.all_eq_true.mpr fun c hc => by
      rw [List.eq_of_mem_replicate hc]
      decide
  simp only [Shape.microDigits, utcShape, fractionOf, List.all_append, hzero, Bool.and_true]
  split
  · rfl
  · have hlen : (Text.ofNatPadded 6 d.microsecond).length = 6 :=
      Text.length_ofNatPadded (by decide) (clock_lt d).2.2.2
    rw [List.take_of_length_le (by omega)]
    exact all_isDigit_ofNatPadded _ _

/-- All digits of a written clock are ASCII. -/
theorem significant_utc (d : DateTime) :
    (utcShape d).significant.all CodePoint.isDigit = true := by
  have hzero : (Text.ofString "00").all CodePoint.isDigit = true := by decide
  rw [Shape.significant]
  simp only [List.all_append, all_isDigit_microDigits_utc, Bool.and_eq_true]
  simp only [utcShape, all_isDigit_ofNatPadded, hzero, and_self]

/-- **Meaning of what was written.** The parts of a clock in UTC denote that clock. -/
theorem toDateTime_utc {d : DateTime} (h : d.offset = some UtcOffset.zero) :
    (utcShape d).toDateTime = .ok d := by
  refine Shape.toDateTime_eq_ok_iff.mpr ⟨significant_utc d, Shape.date_eq_ok_iff.mpr ?_,
    Shape.time_eq_ok_iff.mpr ?_, UtcOffset.zero, h, ?_⟩
  · simp only [utcShape, Text.digitsValue_ofNatPadded, and_self]
  · rw [digitsValue_microDigits_utc]
    simp only [utcShape, Text.digitsValue_ofNatPadded, and_self]
  · have hzero : (Text.ofString "00").digitsValue = 0 := by decide
    simp [Shape.offsetMicros, utcShape, hzero, UtcOffset.zero]

/-! ### Round trip -/

/-- What is rendered is the text of the clock in UTC. -/
theorem render_eq_some {d : DateTime} {t : Text} (h : render d = some t) :
    ∃ u, d.toUtc = some u ∧ t = u.dateText ++ "T" ++ u.timeText ++ "Z" := by
  obtain ⟨u, hu, rfl⟩ := Option.map_eq_some_iff.mp h
  exact ⟨u, hu, rfl⟩

/-- Exactly the instants of the years 1 to 9999 are rendered. -/
theorem render_isSome (d : DateTime) : (render d).isSome = true ↔ d.HasUtc := by
  rw [← d.toUtc_isSome, render, Option.isSome_map]

/-- What has no clock in UTC is not rendered. -/
theorem render_eq_none_iff {d : DateTime} : render d = none ↔ ¬ d.HasUtc := by
  rw [← Option.not_isSome_iff_eq_none, render_isSome]

/-- The text is that of the instant. -/
theorem render_of_instant {d e : DateTime} (h : d.instant = e.instant) : render d = render e := by
  rw [render, render, DateTime.toUtc, DateTime.toUtc, h]

/-- **Timestamps read back.** What is rendered is read as the same instant on a clock in UTC. -/
theorem parse_of_render {d : DateTime} {t : Text} (h : render d = some t) :
    ∃ u, d.toUtc = some u ∧ parse t = .ok u := by
  obtain ⟨u, hu, rfl⟩ := render_eq_some h
  have hzero := (DateTime.instant_of_ofInstant? hu).2
  refine ⟨u, hu, ?_⟩
  rw [parse, shape?_utc]
  exact toDateTime_utc hzero

end Timestamp

end StreamConsumer
