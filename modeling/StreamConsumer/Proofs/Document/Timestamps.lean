import StreamConsumer.Proofs.Document.Faults

/-!
# How an instant is written

A date and time is written as the clock in UTC of its instant: numerals of fixed width between
punctuation, and six decimals of the second unless it is whole (`Timestamp.IsUtcText`). The clock tells
the text, and the text tells the instant (`Timestamp.render_eq_iff`).

**Main statement** (`FieldKind.timestamp_renders`): exactly the instants of the years 1 to 9999 in UTC
are written, in this layout, so that the text is read back as the clock in UTC and no other instant has
the same text.
-/

namespace StreamConsumer

namespace Timestamp

/-! ### Layout -/

/-- The decimals of a second: none if it is whole, otherwise a point and six digits. -/
inductive IsDecimals : Nat → Text → Prop where
  /-- The second is whole. -/
  | whole : IsDecimals 0 []
  /-- There are microseconds. -/
  | point {micros : Nat} (hne : micros ≠ 0) {digits : Text} (h : digits.IsNumeral 6 micros) :
    IsDecimals micros ("." ++ digits)

/-- The layout of a clock in UTC. -/
def IsUtcText (u : DateTime) (t : Text) : Prop :=
  ∃ year month day hour minute second decimals : Text,
    year.IsNumeral 4 u.date.year ∧ month.IsNumeral 2 u.date.month ∧ day.IsNumeral 2 u.date.day ∧
    hour.IsNumeral 2 u.hour ∧ minute.IsNumeral 2 u.minute ∧ second.IsNumeral 2 u.second ∧
    IsDecimals u.microsecond decimals ∧
    t = year ++ "-" ++ month ++ "-" ++ day ++ "T" ++ hour ++ ":" ++ minute ++ ":" ++ second ++
      decimals ++ "Z"

/-- A clock is written in its layout. -/
theorem isUtcText_utc (u : DateTime) : IsUtcText u (u.dateText ++ "T" ++ u.timeText ++ "Z") := by
  obtain ⟨hyear, hmonth, hday⟩ := u.date.lt_pow
  obtain ⟨hh, hmi, hs, hu⟩ := clock_lt u
  have htwo {n : Nat} (hn : n < 100) : (Text.ofNatPadded 2 n).IsNumeral 2 n :=
    Text.isNumeral_ofNatPadded (by decide) hn
  have hdecimals : IsDecimals u.microsecond
      (if u.microsecond = 0 then [] else "." ++ Text.ofNatPadded 6 u.microsecond) := by
    split
    · rename_i h0
      rw [h0]
      exact .whole
    · rename_i hne
      exact .point hne (Text.isNumeral_ofNatPadded (by decide) hu)
  refine ⟨_, _, _, _, _, _, _, Text.isNumeral_ofNatPadded (by decide) hyear, htwo hmonth, htwo hday,
    htwo (by omega), htwo (by omega), htwo (by omega), hdecimals, ?_⟩
  simp only [DateTime.dateText, DateTime.timeText, List.append_assoc]

/-! ### Texts and instants -/

variable {d d' : DateTime} {t t' : Text}

/-- **One text for an instant.** Two dates and times are written as the same text exactly if they have
the same instant. -/
theorem render_eq_iff (h : render d = some t) (h' : render d' = some t') :
    t = t' ↔ d.instant = d'.instant := by
  constructor
  · rintro rfl
    obtain ⟨u, hu, hparse⟩ := parse_of_render h
    obtain ⟨u', hu', hparse'⟩ := parse_of_render h'
    obtain rfl := Except.ok.inj (hparse.symm.trans hparse')
    rw [← (DateTime.instant_of_ofInstant? hu).1, ← (DateTime.instant_of_ofInstant? hu').1]
  · intro hinstant
    rw [render_of_instant hinstant] at h
    exact Option.some.inj (h.symm.trans h')

end Timestamp

namespace FieldKind

open Timestamp

/-- A date and time is written as the text that is rendered. -/
theorem timestamp_eq_ok_iff {d : DateTime} {t : Text} :
    timestamp (.dateTime d) = .ok t ↔ render d = some t := by
  rw [timestamp]
  cases render d <;> simp

/-- **Writing an instant.** A date and time, read as UTC where it has no offset, is written exactly if
its instant lies in the years 1 to 9999 of UTC; otherwise its range is at fault. The text is that of the
clock in UTC, in the layout of such a clock; it is read as this clock, and it is the text of another date
and time exactly if the instants are the same. -/
theorem timestamp_renders (d : DateTime) :
    ((∃ t, timestamp (.dateTime d) = .ok t) ↔ d.HasUtc) ∧
    (¬ d.HasUtc → timestamp (.dateTime d) = .error .dateRange) ∧
    ∀ t, timestamp (.dateTime d) = .ok t →
      (∃ u, u.instant = d.instant ∧ u.offset = some .zero ∧ IsUtcText u t ∧ parse t = .ok u) ∧
      ∀ d' t', timestamp (.dateTime d') = .ok t' → (t = t' ↔ d.instant = d'.instant) := by
  refine ⟨?_, timestamp_of_not_hasUtc, ?_⟩
  · simp only [timestamp_eq_ok_iff]
    rw [← render_isSome, Option.isSome_iff_exists]
  · intro t ht
    rw [timestamp_eq_ok_iff] at ht
    refine ⟨?_, fun d' t' ht' => render_eq_iff ht (timestamp_eq_ok_iff.mp ht')⟩
    obtain ⟨u, hu, hparse⟩ := parse_of_render ht
    obtain ⟨hinstant, hzero⟩ := DateTime.instant_of_ofInstant? hu
    have hlayout : IsUtcText u t := by
      obtain ⟨u', hu', rfl⟩ := render_eq_some ht
      obtain rfl := Option.some.inj (hu.symm.trans hu')
      exact isUtcText_utc u
    exact ⟨u, hinstant, hzero, hlayout, hparse⟩

/-- The second microsecond of the last day of a month on a clock that is a microsecond less than a day in
the west. -/
def farWest : DateTime :=
  ⟨⟨1999, 11, 30, by decide, by decide, by decide, by decide, by decide, by decide⟩,
    ⟨1, by decide⟩, some ⟨-86399999999, by decide, by decide⟩⟩

/-- In UTC it is midnight, the start of the next month, which has no decimals. -/
theorem timestamp_renders_farWest : timestamp (.dateTime farWest) = .ok "1999-12-01T00:00:00Z" ∧
    ∃ u, u.instant = farWest.instant ∧ parse "1999-12-01T00:00:00Z" = .ok u := by
  obtain ⟨hiff, -, hwritten⟩ := timestamp_renders farWest
  have ht : timestamp (.dateTime farWest) = .ok "1999-12-01T00:00:00Z" :=
    timestamp_eq_ok_iff.mpr (by decide +kernel)
  obtain ⟨⟨u, hinstant, -, -, hparse⟩, -⟩ := hwritten _ ht
  exact ⟨ht, u, hinstant, hparse⟩

end FieldKind

end StreamConsumer
