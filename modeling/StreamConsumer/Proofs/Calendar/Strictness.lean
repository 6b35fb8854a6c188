import StreamConsumer.Proofs.Calendar.Ordinary

/-!
# Timestamps of RFC 3339 and others that are read

`IsDateTime` is the notation of RFC 3339: ASCII, a day that exists, a time of day in which a minute may
have a leap second, an offset of less than 24 hours and less than 60 minutes beyond them. What is read is
of this notation with two exceptions, `IsLoose`. A digit after the sixth of the fraction may be one of
any script, since nobody looks at it. The minutes of the offset may be 60 and more, as long as the offset
stays below a day.

**Main statement** (`isLoose_iff`): the loose texts are exactly those that are read and no date and time
of RFC 3339.
-/

namespace StreamConsumer.Timestamp

variable {t : Text} {p : Shape} {u : DateTime}

/-- The date and time of RFC 3339, with a letter in either case. -/
def IsDateTime (t : Text) : Prop := t.IsAscii ∧ ∃ p : Shape, p.IsSpelling t ∧ p.InRange 61

/-- A timestamp that shows a date and time although it has a digit of another script after the sixth of
its fraction, or 60 minutes or more beyond the hours of its offset. -/
def IsLoose (t : Text) : Prop :=
  ∃ (p : Shape) (u : DateTime), p.IsSpelling t ∧ (∀ c ∈ p.significant, c.isDigit = true) ∧
    p.IsShownBy u ∧ ((∃ c ∈ p.fraction.drop 6, c.isDigit = false) ∨ 60 ≤ p.offsetMinute.decimalsValue)

namespace Shape

/-- A leap second does no harm. -/
theorem InRange.mono {seconds seconds' : Nat} (h : p.InRange seconds) (hle : seconds ≤ seconds') :
    p.InRange seconds' :=
  { h with second_lt := Nat.lt_of_lt_of_le h.second_lt hle }

/-- The hours of an offset that a clock has are less than 24. -/
theorem IsShownBy.offsetHour_lt (h : p.IsShownBy u) : p.offsetHour.decimalsValue < 24 := by
  obtain ⟨o, -, hmicros⟩ := h.offset
  have hleast := o.neg_day_lt
  have hgreatest := o.lt_day
  have hday : microsPerDay = 86400 * 1000000 := rfl
  rw [hmicros, hday] at hleast hgreatest
  rw [offsetSeconds] at hleast hgreatest
  cases hwest : p.west with
  | false =>
    simp only [hwest, Bool.false_eq_true, if_false] at hgreatest
    omega
  | true =>
    simp only [hwest, if_true] at hleast
    omega

/-- What is shown is in range, the minutes of the offset apart. -/
theorem IsShownBy.inRange (h : p.IsShownBy u) (hminute : p.offsetMinute.decimalsValue < 60) :
    p.InRange 60 := by
  obtain ⟨hh, hmi, hs, -⟩ := clock_lt u
  have hday := u.date.day_le
  rw [h.year, h.month, h.day] at hday
  exact ⟨h.month ▸ u.date.one_le_month, h.month ▸ u.date.month_le, h.day ▸ u.date.one_le_day, hday,
    h.hour ▸ hh, h.minute ▸ hmi, h.second ▸ hs, h.offsetHour_lt, hminute⟩

end Shape

/-- A text has one spelling. -/
theorem Shape.IsSpelling.unique {p' : Shape} (h : p.IsSpelling t) (h' : p'.IsSpelling t) : p = p' := by
  rw [← shape?_eq_some_iff] at h h'
  exact Option.some.inj (h.symm.trans h')

/-- What is read is a date and time of RFC 3339, or it is loose. -/
theorem isDateTime_or_isLoose_of_parse (h : parse t = .ok u) : IsDateTime t ∨ IsLoose t := by
  obtain ⟨p, hp, hdigits, hu⟩ := parse_eq_ok_iff.mp h
  by_cases hminute : p.offsetMinute.decimalsValue < 60
  · by_cases hrest : ∀ c ∈ p.fraction.drop 6, c.isDigit = true
    · have hascii := hp.isAscii_iff.mpr (Shape.forall_mem_digits_iff.mpr ⟨hdigits, hrest⟩)
      exact .inl ⟨hascii, p, hp, (hu.inRange hminute).mono (by decide)⟩
    · push Not at hrest
      obtain ⟨c, hc, hdigit⟩ := hrest
      exact .inr ⟨p, u, hp, hdigits, hu, .inl ⟨c, hc, Bool.eq_false_iff.mpr hdigit⟩⟩
  · exact .inr ⟨p, u, hp, hdigits, hu, .inr (Nat.le_of_not_lt hminute)⟩

/-- What is loose is no date and time of RFC 3339. -/
theorem not_isDateTime_of_isLoose (h : IsLoose t) : ¬ IsDateTime t := by
  rintro ⟨hascii, p', hp', hrange⟩
  obtain ⟨p, u, hp, -, -, hloose⟩ := h
  obtain rfl := hp.unique hp'
  obtain ⟨c, hc, hdigit⟩ | hminute := hloose
  · have hdigits := (Shape.forall_mem_digits_iff.mp (hp.isAscii_iff.mp hascii)).2 c hc
    rw [hdigit] at hdigits
    cases hdigits
  · exact absurd hrange.offsetMinute_lt (Nat.not_lt.mpr hminute)

/-- **Looseness.** A text is loose exactly if it is read and is no date and time of RFC 3339. -/
theorem isLoose_iff : IsLoose t ↔ (∃ u, parse t = .ok u) ∧ ¬ IsDateTime t := by
  constructor
  · intro h
    refine ⟨?_, not_isDateTime_of_isLoose h⟩
    obtain ⟨p, u, hp, hdigits, hu, -⟩ := h
    exact ⟨u, parse_eq_ok_iff.mpr ⟨p, hp, hdigits, hu⟩⟩
  · rintro ⟨⟨u, hu⟩, hstrict⟩
    exact (isDateTime_or_isLoose_of_parse hu).resolve_left hstrict

/-- An offset of sixty minutes. -/
def sixtyMinutes : Text := "2021-01-01T00:00:00+00:60"

/-- Seven decimals, the last one being the zero of another script. -/
def foreignDecimal : Text := Text.ofString "2021-01-01T00:00:00.000000" ++ [0x660, 0x5A]

/-- Both are read, and neither is a date and time of RFC 3339: the one because of its offset, the other
because it is not ASCII. -/
theorem parse_sixtyMinutes_foreignDecimal :
    ((∃ u, parse sixtyMinutes = .ok u) ∧ ¬ IsDateTime sixtyMinutes) ∧
      (∃ u, parse foreignDecimal = .ok u) ∧ ¬ IsDateTime foreignDecimal := by
  refine ⟨⟨Except.isOk_iff.mp (by decide +kernel), ?_⟩, Except.isOk_iff.mp (by decide +kernel), ?_⟩
  · rintro ⟨-, p, hp, hrange⟩
    have hshape : shape? sixtyMinutes =
        some ⟨"2021", "01", "01", "00", "00", "00", [], false, "00", "60"⟩ := by decide +kernel
    obtain rfl := hp.unique (shape?_eq_some_iff.mp hshape)
    have hminute : ¬ Text.decimalsValue (Text.ofString "60") < 60 := by decide +kernel
    exact hminute hrange.offsetMinute_lt
  · rintro ⟨hascii, -⟩
    revert hascii
    decide +kernel

end StreamConsumer.Timestamp
