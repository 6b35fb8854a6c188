import StreamConsumer.Document
import StreamConsumer.Proofs.Calendar.Timestamp
import StreamConsumer.Proofs.Json.RoundTrip
import StreamConsumer.Proofs.Outcome

/-!
# Fields over the wire and back

A field of each kind is declared to hold certain values, `FieldKind.admits`. What such a value becomes
on the wire is read back as the value itself, a date being told in UTC (`Value.inUtc`):
`decode_of_encode`. Only a missing text or date is not sent, `eq_null_of_encode_none`, and what is
sent has a notation in both dialects, `portable_of_encode`, unless a text has surrogates.

A duration is told in days, seconds and microseconds, in one way alone (`Duration.hasParts_iff`), and
travels as the nanoseconds of these.
-/

namespace StreamConsumer

namespace Value

/-- A date as it is told in UTC, if it can be; any other value is as it was. -/
def inUtc : Value → Value
  | dateTime d => (d.toUtc.map dateTime).getD (dateTime d)
  | v => v

/-- Whether a value is no text with surrogates. -/
def IsScalar (v : Value) : Prop := ∀ t, v = text t → t.IsScalar

end Value

namespace Duration

/-- Days, a part of one day in seconds and a part of one second in microseconds make up a duration. -/
structure HasParts (d : Duration) (days : Int) (seconds microseconds : Nat) : Prop where
  /-- There is less than a day beyond the days. -/
  seconds_lt : seconds < 86400
  /-- There is less than a second beyond the seconds. -/
  microseconds_lt : microseconds < 1000000
  /-- Together they are the duration. -/
  micros_eq : d.micros = (days * 86400 + seconds) * 1000000 + microseconds

/-- A duration is made up of its parts. Below zero it is so too: the days are then counted down to the
day before, and the other parts count up from there. -/
theorem hasParts (d : Duration) : d.HasParts d.days d.seconds d.microseconds := by
  have hday : microsPerDay = 86400 * 1000000 := rfl
  have hsec : microsPerSecond = 1000000 := rfl
  have hsecond : (d.seconds : Int) = d.micros % microsPerDay / microsPerSecond := by
    apply Int.toNat_of_nonneg
    exact Int.ediv_nonneg (Int.emod_nonneg _ (by decide)) (by decide)
  have hmicro : (d.microseconds : Int) = d.micros % microsPerSecond :=
    Int.toNat_of_nonneg (Int.emod_nonneg _ (by decide))
  have hdays : d.days = d.micros / microsPerDay := rfl
  rw [hday] at hsecond hdays
  rw [hsec] at hsecond hmicro
  constructor <;> omega

/-- No other days, seconds and microseconds make it up. -/
theorem hasParts_iff {d : Duration} {days : Int} {seconds microseconds : Nat} :
    d.HasParts days seconds microseconds ↔
      days = d.days ∧ seconds = d.seconds ∧ microseconds = d.microseconds := by
  obtain ⟨hs, hu, heq⟩ := d.hasParts
  constructor
  · rintro ⟨hs', hu', heq'⟩
    omega
  · rintro ⟨rfl, rfl, rfl⟩
    exact d.hasParts

/-- The nanoseconds of a duration are a thousand to the microsecond. -/
theorem nanoseconds_eq (d : Duration) : d.nanoseconds = d.micros * 1000 := by
  have hparts := d.hasParts.micros_eq
  rw [nanoseconds]
  omega

/-- A duration is made from its microseconds. -/
theorem ofMicros_micros (d : Duration) : ofMicros d.micros = .ok d := by
  rw [ofMicros, dif_pos ⟨d.least_le, d.lt_greatest⟩]

end Duration

namespace Timestamp

/-- A written timestamp is ASCII. -/
theorem isScalar_of_render {d : DateTime} {t : Text} (h : render d = some t) : t.IsScalar := by
  obtain ⟨u, -, rfl⟩ := render_eq_some h
  have hpad {w n : Nat} {c : CodePoint} (hc : c ∈ Text.ofNatPadded w n) : c.IsScalar := fun hs => by
    have hd := CodePoint.isDigit_iff.mp (Text.isDigit_of_mem_ofNatPadded hc)
    have := hs.1
    omega
  have hword {w : Text} (hw : w.IsScalar) {c : CodePoint} (hc : c ∈ w) : c.IsScalar := hw c hc
  intro c hc
  simp only [DateTime.dateText, DateTime.timeText, List.mem_append] at hc
  rcases hc with ((((((hc | hc) | hc) | hc) | hc) | hc) | (((((hc | hc) | hc) | hc) | hc) | hc)) | hc
  case inl.inr.inr =>
    split at hc
    · cases hc
    · rcases List.mem_append.mp hc with hc | hc
      · exact hword (by decide) hc
      · exact hpad hc
  all_goals first
    | exact hpad hc
    | exact hword (by decide) hc

end Timestamp

namespace FieldKind

/-- Whether a field of a kind is declared to hold a value. Texts and dates may be missing. -/
def admits : FieldKind → Value → Bool
  | text, .null => true
  | text, .text _ => true
  | integer, .int _ => true
  | duration, .duration _ => true
  | date, .null => true
  | date, .dateTime _ => true
  | policy vocabulary, .policy p => p.vocabulary == vocabulary
  | _, _ => false

/-! ### What a kind admits -/

/-- The kind of texts admits null and texts. -/
theorem admits_text {v : Value} (h : text.admits v = true) : v = .null ∨ ∃ t, v = .text t := by
  cases v <;> simp_all [admits]

/-- The kind of integers admits integers. -/
theorem admits_integer {v : Value} (h : integer.admits v = true) : ∃ n, v = .int n := by
  cases v <;> simp_all [admits]

/-- The kind of durations admits durations. -/
theorem admits_duration {v : Value} (h : duration.admits v = true) : ∃ d, v = .duration d := by
  cases v <;> simp_all [admits]

/-- The kind of dates admits null and dates. -/
theorem admits_date {v : Value} (h : date.admits v = true) : v = .null ∨ ∃ d, v = .dateTime d := by
  cases v <;> simp_all [admits]

/-- The kind of a vocabulary admits its policies. -/
theorem admits_policy {vocabulary : Vocabulary} {v : Value}
    (h : (policy vocabulary).admits v = true) : ∃ p, v = .policy p ∧ p.vocabulary = vocabulary := by
  cases v <;> simp_all [admits]

/-! ### What is sent -/

/-- What is encoded as an integer is one of 64 bits. -/
theorem encodeInteger_eq_ok {tag : Text} {v : Value} {n : Int} (h : encodeInteger tag v = .ok n) :
    v = .int n ∧ FitsWord n := by
  cases v with
  | int m =>
    rw [encodeInteger] at h
    split at h
    · rename_i hm
      obtain rfl := Except.ok.inj h
      exact ⟨rfl, hm⟩
    · cases h
  | _ => cases h

/-- What has a notation for dates is a date, and the notation is its own. -/
theorem timestamp_eq_ok {v : Value} {t : Text} (h : timestamp v = .ok t) :
    ∃ d, v = .dateTime d ∧ Timestamp.render d = some t := by
  cases v with
  | dateTime d =>
    rw [timestamp] at h
    split at h
    · rename_i t' ht
      obtain rfl := Except.ok.inj h
      exact ⟨d, rfl, ht⟩
    · cases h
  | _ => cases h

/-- A duration is sent as its nanoseconds, if a word can hold them. -/
theorem encode_duration_eq_ok {tag : Text} {d : Duration} {o : Option Value}
    (h : encode .duration tag (.duration d) = .ok o) :
    o = some (.int d.nanoseconds) ∧ FitsWord d.nanoseconds := by
  obtain ⟨n, hn, h⟩ := Except.bind_eq_ok_iff.mp h
  obtain rfl : d.nanoseconds = n := Except.ok.inj hn
  obtain ⟨m, hm, h⟩ := Except.bind_eq_ok_iff.mp h
  obtain ⟨hnm, hfits⟩ := encodeInteger_eq_ok hm
  obtain rfl : d.nanoseconds = m := Value.int.inj hnm
  exact ⟨(Except.ok.inj h).symm, hfits⟩

/-- Nothing is sent for nothing alone. -/
theorem eq_null_of_encode_none {k : FieldKind} {tag : Text} {v : Value}
    (h : k.encode tag v = .ok none) : v = .null := by
  cases k with
  | text =>
    apply Value.isNull_iff.mp
    by_contra hv
    rw [encode, if_neg hv] at h
    cases h
  | integer =>
    obtain ⟨n, -, h⟩ := Except.map_eq_ok_iff.mp h
    cases h
  | duration =>
    obtain ⟨n, -, h⟩ := Except.bind_eq_ok_iff.mp h
    obtain ⟨m, -, h⟩ := Except.bind_eq_ok_iff.mp h
    cases h
  | date =>
    apply Value.isNull_iff.mp
    by_contra hv
    rw [encode, if_neg hv] at h
    obtain ⟨t, -, h⟩ := Except.map_eq_ok_iff.mp h
    cases h
  | policy vocabulary =>
    obtain ⟨t, -, h⟩ := Except.map_eq_ok_iff.mp h
    cases h

/-! ### What is read back -/

/-- A duration is read back from its nanoseconds. -/
theorem durationOfNanoseconds_nanoseconds (d : Duration) :
    durationOfNanoseconds d.nanoseconds = .ok d := by
  rw [durationOfNanoseconds, Duration.nanoseconds_eq, Int.mul_ediv_cancel _ (by decide),
    Duration.ofMicros_micros]
  rfl

/-- **Fields read back.** What is sent for a value that the kind admits is not null and is read as
that value, a date in UTC. -/
theorem decode_of_encode {k : FieldKind} {tag : Text} {v w : Value} (hv : k.admits v = true)
    (h : k.encode tag v = .ok (some w)) : w.isNull = false ∧ k.decode tag w = .ok v.inUtc := by
  cases k with
  | text =>
    obtain rfl | ⟨t, rfl⟩ := admits_text hv
    · cases h
    · obtain rfl : Value.text t = w := Option.some.inj (Except.ok.inj h)
      exact ⟨rfl, rfl⟩
  | integer =>
    obtain ⟨n, rfl⟩ := admits_integer hv
    obtain ⟨m, hm, h⟩ := Except.map_eq_ok_iff.mp h
    obtain rfl := Option.some.inj h
    rw [← (encodeInteger_eq_ok hm).1]
    exact ⟨rfl, rfl⟩
  | duration =>
    obtain ⟨d, rfl⟩ := admits_duration hv
    obtain rfl := Option.some.inj (encode_duration_eq_ok h).1
    refine ⟨rfl, ?_⟩
    simp only [decode, decodeInteger, bind, Except.bind, durationOfNanoseconds_nanoseconds]
    rfl
  | date =>
    obtain rfl | ⟨d, rfl⟩ := admits_date hv
    · cases h
    · obtain ⟨t, ht, h⟩ := Except.map_eq_ok_iff.mp h
      obtain rfl := Option.some.inj h
      obtain ⟨d', hd, hrender⟩ := timestamp_eq_ok ht
      obtain rfl := Value.dateTime.inj hd
      obtain ⟨u, hu, hparse⟩ := Timestamp.parse_of_render hrender
      refine ⟨rfl, ?_⟩
      simp only [decode, decodeText, Value.text?, bind, Except.bind, hparse, Value.inUtc, hu]
      rfl
  | policy vocabulary =>
    obtain ⟨p, rfl, rfl⟩ := admits_policy hv
    obtain rfl : Value.text p.wire = w := Option.some.inj (Except.ok.inj h)
    refine ⟨rfl, ?_⟩
    simp only [decode, decodeText, Value.text?, bind, Except.bind, Vocabulary.ofWire?_wire]
    rfl

/-- The words of policies have no surrogates. -/
theorem isScalar_wire (p : Policy) : p.wire.IsScalar := by
  rcases p with p | p | p <;> cases p <;> decide

/-- What is sent for a value that the kind admits has a notation in both dialects, unless it is a text
with surrogates. -/
theorem portable_of_encode {k : FieldKind} {tag : Text} {v w : Value} (hv : k.admits v = true)
    (hs : v.IsScalar) (h : k.encode tag v = .ok (some w)) (n : Nat) : w.Portable n := by
  cases k with
  | text =>
    obtain rfl | ⟨t, rfl⟩ := admits_text hv
    · cases h
    · obtain rfl : Value.text t = w := Option.some.inj (Except.ok.inj h)
      exact .text n (hs t rfl)
  | integer =>
    obtain ⟨m, hm, h⟩ := Except.map_eq_ok_iff.mp h
    obtain rfl := Option.some.inj h
    exact .int n (encodeInteger_eq_ok hm).2
  | duration =>
    obtain ⟨d, rfl⟩ := admits_duration hv
    obtain ⟨hw, hfits⟩ := encode_duration_eq_ok h
    obtain rfl := Option.some.inj hw
    exact .int n hfits
  | date =>
    obtain rfl | ⟨d, rfl⟩ := admits_date hv
    · cases h
    · obtain ⟨t, ht, h⟩ := Except.map_eq_ok_iff.mp h
      obtain rfl := Option.some.inj h
      obtain ⟨d', -, hrender⟩ := timestamp_eq_ok ht
      exact .text n (Timestamp.isScalar_of_render hrender)
  | policy vocabulary =>
    obtain ⟨p, rfl, -⟩ := admits_policy hv
    obtain rfl : Value.text p.wire = w := Option.some.inj (Except.ok.inj h)
    exact .text n (isScalar_wire p)

end FieldKind

end StreamConsumer
