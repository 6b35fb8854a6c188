import Mathlib.Order.Bounds.Defs
import StreamConsumer.Proofs.Document.Decoding

/-!
# Durations in nanoseconds

The wire counts a duration in nanoseconds, and a duration is kept in microseconds. An integer of the wire
is therefore read as the duration of its whole microseconds, counted downwards, if there is one
(`Document.read_duration_eq_ok_iff`); the nanoseconds of that are the greatest multiple of a thousand
that is not above the integer, `Duration.isGreatest_nanoseconds`.
-/

namespace StreamConsumer

namespace Duration

/-- Cut to whole microseconds, a number of nanoseconds becomes the greatest multiple of a thousand that is
not above it. -/
theorem isGreatest_nanoseconds {d : Duration} {n : Int} (h : d.micros = n / 1000) :
    IsGreatest {i | 1000 ∣ i ∧ i ≤ n} d.nanoseconds := by
  rw [nanoseconds_eq, h]
  refine ⟨⟨Int.dvd_mul_left _ _, Int.ediv_mul_le n (by decide)⟩, ?_⟩
  rintro i ⟨⟨j, rfl⟩, hle⟩
  omega

/-- The whole seconds that are a duration. The last of them is the last second of the last day. -/
theorem exists_micros_eq_seconds_iff {seconds : Int} :
    (∃ d : Duration, d.micros = seconds * microsPerSecond) ↔
      -999999999 * 86400 ≤ seconds ∧ seconds ≤ 999999999 * 86400 + 86399 := by
  have hday : microsPerDay = 86400 * 1000000 := rfl
  have hsec : microsPerSecond = 1000000 := rfl
  rw [hsec]
  constructor
  · rintro ⟨⟨micros, hleast, hgreatest⟩, rfl⟩
    rw [hday] at hleast hgreatest
    omega
  · intro h
    refine ⟨⟨seconds * 1000000, ?_, ?_⟩, rfl⟩
    · rw [hday]
      omega
    · rw [hday]
      omega

end Duration

namespace Document

variable {ms : Members} {tag : Text} {n : Int}

/-- A field that holds an integer is read as the duration of its whole microseconds. -/
theorem read_duration_eq_ok_iff (hms : ms.get tag = .int n) {o : Option Value} :
    read ms tag .duration = .ok o ↔ ∃ d : Duration, d.micros = n / 1000 ∧ o = some (.duration d) := by
  have hread : read ms tag .duration = (FieldKind.decode .duration tag (.int n)).map some := by
    rw [read, hms]
    rfl
  simp only [hread, Except.map_eq_ok_iff, FieldKind.decode_duration_int_eq_ok_iff]
  constructor
  · rintro ⟨w, ⟨d, hmicros, rfl⟩, rfl⟩
    exact ⟨d, hmicros, rfl⟩
  · rintro ⟨d, hmicros, rfl⟩
    exact ⟨_, ⟨d, hmicros, rfl⟩, rfl⟩

/-- From its nanoseconds a duration is read back. -/
theorem read_duration_of_nanoseconds {d : Duration} (hms : ms.get tag = .int (d.micros * 1000)) :
    read ms tag .duration = .ok (some (.duration d)) :=
  (read_duration_eq_ok_iff hms).mpr ⟨d, (Int.mul_ediv_cancel _ (by decide)).symm, rfl⟩

/-- An integer is read exactly if its whole microseconds are a duration. -/
theorem exists_read_duration_iff (hms : ms.get tag = .int n) :
    (∃ o, read ms tag .duration = .ok o) ↔ ∃ d : Duration, d.micros = n / 1000 := by
  simp only [read_duration_eq_ok_iff hms]
  constructor
  · rintro ⟨_, d, hmicros, -⟩
    exact ⟨d, hmicros⟩
  · rintro ⟨d, hmicros⟩
    exact ⟨_, d, hmicros, rfl⟩

/-- Of two integers the greater one is read as no shorter duration. -/
theorem read_duration_mono {ms' : Members} {tag' : Text} {n' : Int} {d d' : Duration} (hle : n ≤ n')
    (hms : ms.get tag = .int n) (hms' : ms'.get tag' = .int n')
    (h : read ms tag .duration = .ok (some (.duration d)))
    (h' : read ms' tag' .duration = .ok (some (.duration d'))) : d.micros ≤ d'.micros := by
  obtain ⟨_, hmicros, ⟨⟩⟩ := (read_duration_eq_ok_iff hms).mp h
  obtain ⟨_, hmicros', ⟨⟩⟩ := (read_duration_eq_ok_iff hms').mp h'
  rw [hmicros, hmicros']
  exact Int.ediv_le_ediv (by decide) hle

end Document

end StreamConsumer
