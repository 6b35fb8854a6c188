import Mathlib.Data.List.TakeWhile
import StreamConsumer.Proofs.Calendar.Timestamp
import StreamConsumer.Proofs.Outcome
import StreamConsumer.Proofs.Text.Decimal

/-!
# What a timestamp denotes

`Shape.IsSpelling` is the notation of timestamps: runs of digits with punctuation between them, a
fraction that may be missing and a zone. `Timestamp.shape?` finds the parts of exactly these texts,
`shape?_eq_some_iff`, so that a text has one reading.

The parts denote an instant, `Shape.seconds`, exactly and with every digit of the fraction. A date and
time that shows them has that instant, cut to microseconds (`Shape.IsShownBy.instant_eq`).

**Main statement** (`parse_eq_ok_iff`): `Timestamp.parse` reads a text exactly as what shows its parts,
provided that the digits that count are ASCII. What `Timestamp.render` writes denotes the instant it is
written from (`denotes_of_render`).
-/

namespace StreamConsumer

namespace Timestamp

/-! ### Notation -/

/-- A letter given in upper case stands there, in either case. -/
def IsLetter (upper letter : CodePoint) : Prop := letter = upper ∨ letter.val = upper.val + 0x20

/-- The text of a fraction with given digits: nothing, or a point and the digits. -/
inductive IsFraction : Text → Text → Prop where
  /-- No fraction. -/
  | missing : IsFraction [] []
  /-- At least one digit. -/
  | point {t : Text} (hne : t ≠ []) (h : ∀ c ∈ t, c.isDecimal = true) : IsFraction (0x2E :: t) t

/-- The text of a zone with a given direction, hours and minutes: the letter for UTC, or a sign and two
runs of digits. -/
inductive IsZone : Text → Bool → Text → Text → Prop where
  /-- UTC. -/
  | utc {z : CodePoint} (h : IsLetter 0x5A z) : IsZone [z] false "00" "00"
  /-- An offset; the minus sign is for the west. -/
  | offset (west : Bool) {hour minute : Text} (hh : IsRun 2 hour) (hm : IsRun 2 minute) :
    IsZone ((if west then 0x2D else 0x2B) :: (hour ++ 0x3A :: minute)) west hour minute

namespace Shape

/-- A text consists of the parts and the punctuation of a timestamp. -/
structure IsSpelling (p : Shape) (t : Text) : Prop where
  /-- The year has four digits. -/
  year : IsRun 4 p.year
  /-- The month has two digits. -/
  month : IsRun 2 p.month
  /-- The day has two digits. -/
  day : IsRun 2 p.day
  /-- The hour has two digits. -/
  hour : IsRun 2 p.hour
  /-- The minute has two digits. -/
  minute : IsRun 2 p.minute
  /-- The second has two digits. -/
  second : IsRun 2 p.second
  /-- The parts stand in this order. -/
  text : ∃ letter fraction zone, IsLetter 0x54 letter ∧ IsFraction fraction p.fraction ∧
    IsZone zone p.west p.offsetHour p.offsetMinute ∧
    t = p.year ++ 0x2D :: (p.month ++ 0x2D :: (p.day ++ letter :: (p.hour ++ 0x3A :: (p.minute ++
      0x3A :: (p.second ++ (fraction ++ zone))))))

end Shape

/-! ### Splitting a text -/

/-- A run of digits of known length is found exactly if the text begins with one. -/
theorem digits?_eq_some_iff {n : Nat} {s run rest : Text} :
    digits? n s = some (run, rest) ↔ IsRun n run ∧ s = run ++ rest := by
  constructor
  · intro h
    unfold digits? at h
    simp only at h
    split at h
    · rename_i hrun
      obtain ⟨rfl, rfl⟩ := Prod.mk.inj (Option.some.inj h)
      exact ⟨⟨hrun.1, List.all_eq_true.mp hrun.2⟩, (List.take_append_drop n s).symm⟩
    · cases h
  · rintro ⟨hrun, rfl⟩
    exact digits?_append hrun rest

/-- A code point is passed exactly if the text begins with it. -/
theorem after?_eq_some_iff {c : CodePoint} {s rest : Text} :
    after? c s = some rest ↔ s = c :: rest := by
  cases s with
  | nil => simp [after?]
  | cons d s =>
    rw [after?]
    split
    · rename_i hdc
      simp [hdc]
    · rename_i hdc
      simp [hdc]

/-- A letter is passed exactly if the text begins with it in either case. -/
theorem afterLetter?_eq_some_iff {upper : CodePoint} {s rest : Text} :
    afterLetter? upper s = some rest ↔ ∃ letter, IsLetter upper letter ∧ s = letter :: rest := by
  cases s with
  | nil => simp [afterLetter?]
  | cons d s =>
    rw [afterLetter?]
    split
    · rename_i hd
      constructor
      · intro h
        exact ⟨d, hd, by rw [Option.some.inj h]⟩
      · rintro ⟨letter, -, h⟩
        rw [(List.cons.inj h).2]
    · rename_i hd
      refine iff_of_false (by simp) ?_
      rintro ⟨letter, hletter, h⟩
      obtain ⟨rfl, -⟩ := List.cons.inj h
      exact hd hletter

/-- What is taken for a fraction is one, or there is none. -/
theorem fraction?_eq_some {s fraction rest : Text} (h : fraction? s = some (fraction, rest)) :
    ∃ t, IsFraction t fraction ∧ s = t ++ rest := by
  cases s with
  | nil =>
    obtain ⟨rfl, rfl⟩ := Prod.mk.inj (Option.some.inj h)
    exact ⟨[], .missing, rfl⟩
  | cons c s =>
    rw [fraction?] at h
    split at h
    · rename_i hc
      subst hc
      rw [List.span_eq_takeWhile_dropWhile] at h
      simp only at h
      split at h
      · cases h
      · rename_i hne
        obtain ⟨rfl, rfl⟩ := Prod.mk.inj (Option.some.inj h)
        refine ⟨_, .point ?_ fun c hc => List.mem_takeWhile_imp hc, ?_⟩
        · rwa [List.isEmpty_iff] at hne
        · rw [List.cons_append, List.takeWhile_append_dropWhile]
    · obtain ⟨rfl, rfl⟩ := Prod.mk.inj (Option.some.inj h)
      exact ⟨[], .missing, rfl⟩

/-- What is taken for an offset is exactly a text that spells one. -/
theorem offset?_eq_some_iff {s hour minute : Text} {west : Bool} :
    offset? s = some (west, hour, minute) ↔ IsZone s west hour minute := by
  constructor
  · intro h
    unfold offset? at h
    split at h
    · rename_i rest hrest
      obtain ⟨z, hz, rfl⟩ := afterLetter?_eq_some_iff.mp hrest
      split at h
      · rename_i hempty
        obtain rfl := List.isEmpty_iff.mp hempty
        obtain ⟨rfl, rfl, rfl⟩ := Option.some.inj h
        exact .utc hz
      · cases h
    · split at h
      · cases h
      · rename_i sign s _
        split at h
        · rename_i hsign
          obtain ⟨⟨hour, s₁⟩, hhour, h₁⟩ := Option.bind_eq_some_iff.mp h
          obtain ⟨s₂, hcolon, h₂⟩ := Option.bind_eq_some_iff.mp h₁
          obtain ⟨⟨minute, s₃⟩, hminute, h₃⟩ := Option.bind_eq_some_iff.mp h₂
          obtain ⟨hh, rfl⟩ := digits?_eq_some_iff.mp hhour
          obtain rfl := after?_eq_some_iff.mp hcolon
          obtain ⟨hm, rfl⟩ := digits?_eq_some_iff.mp hminute
          simp only at h₃
          split at h₃
          · rename_i hempty
            obtain rfl := List.isEmpty_iff.mp hempty
            obtain ⟨rfl, hparts⟩ := Prod.mk.inj (Option.some.inj h₃)
            obtain ⟨rfl, rfl⟩ := Prod.mk.inj hparts
            have hzone := IsZone.offset (sign = 0x2D) hh hm
            obtain rfl | rfl := hsign
            · simpa using hzone
            · simpa using hzone
          · cases h₃
        · cases h
  · intro h
    cases h with
    | utc hz =>
      rw [offset?, afterLetter?_eq_some_iff.mpr ⟨_, hz, rfl⟩]
      rfl
    | offset west hh hm =>
      have hletter (rest : Text) :
          afterLetter? 0x5A ((if west then 0x2D else 0x2B) :: rest) = none := by
        cases west <;> rfl
      have hsign : (if west then (0x2D : CodePoint) else 0x2B) = 0x2B ∨
          (if west then (0x2D : CodePoint) else 0x2B) = 0x2D := by
        cases west <;> decide
      have hwest : decide ((if west then (0x2D : CodePoint) else 0x2B) = 0x2D) = west := by
        cases west <;> decide
      have hlast := digits?_append hm []
      rw [List.append_nil] at hlast
      rw [offset?, hletter]
      simp only [if_pos hsign, digits?_append hh, after?_cons, hlast, hwest, bind, Option.bind]
      rfl

/-- A zone does not go on with the digits of a fraction, nor does it begin one. -/
theorem IsZone.exists_cons {zone : Text} {west : Bool} {hour minute : Text}
    (h : IsZone zone west hour minute) :
    ∃ c rest, zone = c :: rest ∧ c ≠ 0x2E ∧ c.isDecimal = false := by
  cases h with
  | utc hz =>
    obtain rfl | hz := hz
    · exact ⟨_, _, rfl, by decide, by decide⟩
    · obtain rfl : _ = (0x7A : CodePoint) := Fin.ext hz
      exact ⟨_, _, rfl, by decide, by decide⟩
  | offset west hh hm =>
    cases west with
    | false => exact ⟨_, _, rfl, by decide, by decide⟩
    | true => exact ⟨_, _, rfl, by decide, by decide⟩

/-- A fraction before an offset is found whole. -/
theorem fraction?_append {t fraction zone : Text} {west : Bool} {hour minute : Text}
    (ht : IsFraction t fraction) (hz : IsZone zone west hour minute) :
    fraction? (t ++ zone) = some (fraction, zone) := by
  obtain ⟨c, rest, rfl, hpoint, hdecimal⟩ := hz.exists_cons
  cases ht with
  | missing => exact fraction?_of_ne hpoint rest
  | point hne hdigits =>
    obtain ⟨n, hn⟩ := Nat.exists_eq_succ_of_ne_zero fun h0 => hne (List.length_eq_zero_iff.mp h0)
    exact fraction?_point ⟨hn, hdigits⟩ hdecimal rest

/-- **Notation.** The parts of a text are found exactly if it is a timestamp that consists of them. -/
theorem shape?_eq_some_iff {t : Text} {p : Shape} : shape? t = some p ↔ p.IsSpelling t := by
  constructor
  · intro h
    obtain ⟨⟨year, s₁⟩, hyear, h₁⟩ := Option.bind_eq_some_iff.mp h
    obtain ⟨s₂, hdash, h₂⟩ := Option.bind_eq_some_iff.mp h₁
    obtain ⟨⟨month, s₃⟩, hmonth, h₃⟩ := Option.bind_eq_some_iff.mp h₂
    obtain ⟨s₄, hdash', h₄⟩ := Option.bind_eq_some_iff.mp h₃
    obtain ⟨⟨day, s₅⟩, hday, h₅⟩ := Option.bind_eq_some_iff.mp h₄
    obtain ⟨s₆, hletter, h₆⟩ := Option.bind_eq_some_iff.mp h₅
    obtain ⟨⟨hour, s₇⟩, hhour, h₇⟩ := Option.bind_eq_some_iff.mp h₆
    obtain ⟨s₈, hcolon, h₈⟩ := Option.bind_eq_some_iff.mp h₇
    obtain ⟨⟨minute, s₉⟩, hminute, h₉⟩ := Option.bind_eq_some_iff.mp h₈
    obtain ⟨s₁₀, hcolon', h₁₀⟩ := Option.bind_eq_some_iff.mp h₉
    obtain ⟨⟨second, s₁₁⟩, hsecond, h₁₁⟩ := Option.bind_eq_some_iff.mp h₁₀
    obtain ⟨⟨fraction, s₁₂⟩, hfraction, h₁₂⟩ := Option.bind_eq_some_iff.mp h₁₁
    obtain ⟨⟨west, offsetHour, offsetMinute⟩, hoffset, h₁₃⟩ := Option.bind_eq_some_iff.mp h₁₂
    obtain rfl := Option.some.inj h₁₃
    obtain ⟨letter, hcase, rfl⟩ := afterLetter?_eq_some_iff.mp hletter
    obtain ⟨f, hf, rfl⟩ := fraction?_eq_some hfraction
    rw [after?_eq_some_iff] at hdash hdash' hcolon hcolon'
    rw [digits?_eq_some_iff] at hyear hmonth hday hhour hminute hsecond
    refine ⟨hyear.1, hmonth.1, hday.1, hhour.1, hminute.1, hsecond.1, letter, f, s₁₂, hcase, hf,
      offset?_eq_some_iff.mp hoffset, ?_⟩
    rw [hyear.2, hdash, hmonth.2, hdash', hday.2, hhour.2, hcolon, hminute.2, hcolon', hsecond.2]
  · rintro ⟨hyear, hmonth, hday, hhour, hminute, hsecond, letter, f, zone, hletter, hf, hzone, rfl⟩
    have hafter (rest : Text) : afterLetter? 0x54 (letter :: rest) = some rest :=
      afterLetter?_eq_some_iff.mpr ⟨letter, hletter, rfl⟩
    exact shape?_assembled hyear hmonth hday hhour hminute hsecond hafter (fraction?_append hf hzone)
      (offset?_eq_some_iff.mpr hzone)

/-! ### Meaning -/

namespace Shape

/-- The day that the parts denote, counted from 1 January of year 1. -/
def dayNumber (p : Shape) : Nat :=
  Calendar.daysBeforeYear p.year.decimalsValue +
    Calendar.daysBeforeMonth p.year.decimalsValue p.month.decimalsValue +
    (p.day.decimalsValue - 1)

/-- The offset that the parts denote, in seconds to the east. -/
def offsetSeconds (p : Shape) : Int :=
  let seconds := (p.offsetHour.decimalsValue * 60 + p.offsetMinute.decimalsValue) * 60
  if p.west then -seconds else seconds

/-- The seconds from the start of year 1 in UTC to the second that the parts denote. -/
def wholeSeconds (p : Shape) : Int :=
  let clock := (p.hour.decimalsValue * 60 + p.minute.decimalsValue) * 60 + p.second.decimalsValue
  (p.dayNumber * 86400 + clock : Nat) - p.offsetSeconds

/-- The seconds to the instant that the parts denote, with every digit of the fraction. -/
def seconds (p : Shape) : ℚ := p.wholeSeconds + p.fraction.fractionValue

end Shape

/-- A text is a timestamp, and so many seconds lie between the start of year 1 in UTC and the instant
that it denotes. -/
def Denotes (t : Text) (seconds : ℚ) : Prop := ∃ p : Shape, p.IsSpelling t ∧ p.seconds = seconds

/-- A timestamp denotes one instant. -/
theorem Denotes.unique {t : Text} {q r : ℚ} (hq : Denotes t q) (hr : Denotes t r) : q = r := by
  obtain ⟨p, hp, rfl⟩ := hq
  obtain ⟨p', hp', rfl⟩ := hr
  rw [← shape?_eq_some_iff] at hp hp'
  rw [hp] at hp'
  rw [Option.some.inj hp']

/-! ### What is read -/

namespace Shape

variable {p : Shape}

/-- A date and time shows what the parts say: the date, the clock, whose fraction is cut to microseconds,
and the offset. -/
structure IsShownBy (p : Shape) (u : DateTime) : Prop where
  /-- The year on the calendar. -/
  year : u.date.year = p.year.decimalsValue
  /-- The month on the calendar. -/
  month : u.date.month = p.month.decimalsValue
  /-- The day on the calendar. -/
  day : u.date.day = p.day.decimalsValue
  /-- The hour on the clock. -/
  hour : u.hour = p.hour.decimalsValue
  /-- The minute on the clock. -/
  minute : u.minute = p.minute.decimalsValue
  /-- The second on the clock. -/
  second : u.second = p.second.decimalsValue
  /-- The whole microseconds of the fraction. -/
  microsecond : (u.microsecond : Int) = ⌊p.fraction.fractionValue * 1000000⌋
  /-- The offset is known, and it is that of the zone. -/
  offset : ∃ o, u.offset = some o ∧ o.micros = p.offsetSeconds * 1000000

/-- All but the fraction is a whole number of microseconds. -/
theorem seconds_mul (p : Shape) : p.seconds * 1000000 =
    p.fraction.fractionValue * 1000000 + (p.wholeSeconds * 1000000 : Int) := by
  rw [seconds]
  push_cast
  ring

/-- **Cutting.** What shows the parts has their instant, cut to microseconds. -/
theorem IsShownBy.instant_eq {u : DateTime} (h : p.IsShownBy u) :
    u.instant = ⌊p.seconds * 1000000⌋ := by
  obtain ⟨o, ho, hmicros⟩ := h.offset
  have htime : u.time.val = ((u.hour * 60 + u.minute) * 60 + u.second) * 1000000 + u.microsecond := by
    simp only [DateTime.hour, DateTime.minute, DateTime.second, DateTime.microsecond]
    omega
  rw [seconds_mul, Int.floor_add_intCast, ← h.microsecond, DateTime.instant, ho, htime,
    Date.dayNumber, wholeSeconds, dayNumber, ← h.year, ← h.month, ← h.day, ← h.hour, ← h.minute,
    ← h.second]
  simp only [Option.map_some, Option.getD_some, hmicros, microsPerDay, microsPerSecond]
  push_cast
  ring

/-- The first six digits of the fraction denote its whole microseconds. -/
theorem floor_fraction (p : Shape) :
    ⌊p.fraction.fractionValue * 1000000⌋ = (p.microDigits.decimalsValue : Int) := by
  exact_mod_cast Text.floor_fractionValue 6 p.fraction

/-- **Parts.** They denote what shows them, provided that the digits that count are ASCII. -/
theorem toDateTime_eq_ok_iff_isShownBy {u : DateTime} :
    p.toDateTime = .ok u ↔ (∀ c ∈ p.significant, c.isDigit = true) ∧ p.IsShownBy u := by
  rw [toDateTime_eq_ok_iff, date_eq_ok_iff, time_eq_ok_iff, List.all_eq_true]
  refine and_congr_right fun hdigits => ?_
  simp only [significant, List.mem_append, or_imp, forall_and] at hdigits
  obtain ⟨⟨⟨⟨⟨⟨⟨⟨hy, hmo⟩, hd⟩, hh⟩, hmi⟩, hs⟩, hmicro⟩, hoh⟩, hom⟩ := hdigits
  have hzone : p.offsetMicros = p.offsetSeconds * 1000000 := by
    simp only [offsetMicros, offsetSeconds, Text.decimalsValue_of_isDigit hoh,
      Text.decimalsValue_of_isDigit hom, microsPerSecond]
    split
    · push_cast
      ring
    · push_cast
      ring
  rw [hzone, ← Text.decimalsValue_of_isDigit hy, ← Text.decimalsValue_of_isDigit hmo,
    ← Text.decimalsValue_of_isDigit hd, ← Text.decimalsValue_of_isDigit hh,
    ← Text.decimalsValue_of_isDigit hmi, ← Text.decimalsValue_of_isDigit hs,
    ← Text.decimalsValue_of_isDigit hmicro, ← Int.natCast_inj (n := p.microDigits.decimalsValue),
    ← floor_fraction]
  constructor
  · rintro ⟨⟨hyear, hmonth, hday⟩, ⟨hhour, hminute, hsecond, hmicrosecond⟩, hoffset⟩
    exact ⟨hyear, hmonth, hday, hhour, hminute, hsecond, hmicrosecond, hoffset⟩
  · rintro ⟨hyear, hmonth, hday, hhour, hminute, hsecond, hmicrosecond, hoffset⟩
    exact ⟨⟨hyear, hmonth, hday⟩, ⟨hhour, hminute, hsecond, hmicrosecond⟩, hoffset⟩

end Shape

/-- **Reading.** A text is read exactly as what shows its parts, the digits that count being ASCII. -/
theorem parse_eq_ok_iff {t : Text} {u : DateTime} : parse t = .ok u ↔
    ∃ p : Shape, p.IsSpelling t ∧ (∀ c ∈ p.significant, c.isDigit = true) ∧ p.IsShownBy u := by
  simp only [← shape?_eq_some_iff, ← Shape.toDateTime_eq_ok_iff_isShownBy]
  rw [parse]
  cases shape? t with
  | none => simp
  | some p => simp

/-- A timestamp that is read denotes an instant, and what it is read as is that instant cut to
microseconds, on a clock with an offset. -/
theorem denotes_of_parse {t : Text} {u : DateTime} (h : parse t = .ok u) :
    ∃ q, Denotes t q ∧ u.instant = ⌊q * 1000000⌋ ∧ u.offset.isSome = true := by
  obtain ⟨p, hp, -, hu⟩ := parse_eq_ok_iff.mp h
  obtain ⟨o, ho, -⟩ := hu.offset
  exact ⟨p.seconds, ⟨p, hp, rfl⟩, hu.instant_eq, by rw [ho]; rfl⟩

/-- **Writing.** What is written denotes exactly the instant it is written from. -/
theorem denotes_of_render {d : DateTime} {t : Text} (h : render d = some t) :
    Denotes t (d.instant / 1000000) := by
  obtain ⟨u, hu, rfl⟩ := render_eq_some h
  obtain ⟨hinstant, hzero⟩ := DateTime.instant_of_ofInstant? hu
  have hlength : (utcShape u).fraction.length ≤ 6 := by
    show (fractionOf u).length ≤ 6
    unfold fractionOf
    split
    · exact Nat.zero_le 6
    · exact Nat.le_of_eq (Text.length_ofNatPadded (by decide) (clock_lt u).2.2.2)
  -- A fraction of no more than six digits is a whole number of microseconds, so that nothing is cut.
  obtain ⟨n, hn⟩ : ∃ n : Int, (utcShape u).seconds * 1000000 = n := by
    have hmicros := Text.fractionValue_mul_pow hlength
    norm_num at hmicros
    rw [Shape.seconds_mul, hmicros]
    exact ⟨_, (Int.cast_add _ _).symm⟩
  have hcut := (Shape.toDateTime_eq_ok_iff_isShownBy.mp (toDateTime_utc hzero)).2.instant_eq
  rw [hn, Int.floor_intCast, hinstant] at hcut
  refine ⟨utcShape u, shape?_eq_some_iff.mp (shape?_utc u), ?_⟩
  rw [eq_div_iff (by norm_num), hn, hcut]

end Timestamp

end StreamConsumer
