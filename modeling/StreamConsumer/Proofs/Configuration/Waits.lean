import StreamConsumer.Configuration.Builder
import StreamConsumer.Proofs.Configuration.Encoding
import StreamConsumer.Proofs.Document.Conversion
import StreamConsumer.Proofs.Document.Durations

/-!
# How long the server waits

The wait of a configuration is the one field that is a duration. It is set in seconds, kept in
microseconds and sent in nanoseconds. The three have different bounds: there are more seconds that can be
kept than there are words on the wire, so that a wait may be kept and yet not be sent
(`Configuration.SendsWait`).

**Main statement** (`Duration.nanoseconds_correspond`): from one unit to the next nothing is lost but
what is below a microsecond, and that only where an integer is read.
-/

namespace StreamConsumer

namespace Configuration

/-- The wait of a configuration is a number of nanoseconds on the wire, if a word can hold it. -/
structure SendsWait (c : Configuration) (n : Int) : Prop where
  /-- The wait has that many nanoseconds. -/
  nanoseconds : FieldKind.nanoseconds c.ackWait = .ok n
  /-- They are what is written under its tag, whenever anything is. -/
  written : ∀ ms, c.toMembers = .ok ms →
    FitsWord n ∧ ms.get? (.text Field.ackWait.tag) = some (.int n)
  /-- If a word can hold them, the wait is nothing to fail for. -/
  sendable : FitsWord n →
    (∀ f : Field, f ≠ .ackWait → ∃ o, f.kind.encode f.tag (c.get f) = .ok o) →
      ∃ ms, c.toMembers = .ok ms
  /-- If not, the wait is reported, unless a field that is written before it is at fault. -/
  refused : ¬ FitsWord n →
    (∀ f ∈ Field.wireOrder.take 6, ∃ o, f.kind.encode f.tag (c.get f) = .ok o) →
      c.toMembers = .error (.encoding "integer exceeds 64-bit range" Field.ackWait.tag (.int n))

/-- The wait is at fault if it cannot be sent and the fields that are written before it can. -/
theorem toMembers_of_ackWait_refused {c : Configuration} {e : Fault}
    (hbefore : ∀ f ∈ Field.wireOrder.take 6, ∃ o, f.kind.encode f.tag (c.get f) = .ok o)
    (he : FieldKind.encode .duration Field.ackWait.tag c.ackWait = .error e) :
    c.toMembers = .error e := by
  have hsplit : Field.wireOrder = Field.wireOrder.take 6 ++ Field.ackWait :: Field.wireOrder.drop 7 :=
    rfl
  rw [toMembers, membersOf_eq_error_iff, hsplit]
  exact ⟨.ackWait, (isFirstFault_append_iff (by decide)).mpr ⟨hbefore, he⟩⟩

/-- A wait that is a duration is sent as its nanoseconds. -/
theorem sendsWait_of_ackWait {c : Configuration} {d : Duration} (h : c.ackWait = .duration d) :
    c.SendsWait (d.micros * 1000) := by
  rw [← d.nanoseconds_eq]
  constructor
  · rw [h]
    rfl
  · intro ms hms
    have hsent := encode_eq_get?_of_toMembers hms .ackWait
    rw [show c.get .ackWait = .duration d from h] at hsent
    exact (FieldKind.encode_duration_eq_ok hsent).symm
  · intro hfits hothers
    refine ⟨_, membersOf_eq_ok_iff.mpr ⟨fun f _ => ?_, rfl⟩⟩
    by_cases hf : f = .ackWait
    · rw [hf, show c.get .ackWait = .duration d from h]
      exact (FieldKind.exists_encode_iff rfl).mpr (decide_eq_true hfits)
    · exact hothers f hf
  · intro hfits hbefore
    apply toMembers_of_ackWait_refused hbefore
    rw [h]
    exact FieldKind.encode_eq_error_of_wireInteger rfl rfl hfits

end Configuration

namespace Builder

variable {b b' : Builder} {seconds : Int}

/-- Whole seconds are set as the wait that has their microseconds. -/
theorem set_ackWait_int_eq_ok_iff : b.set .ackWait (.int seconds) = .ok b' ↔ ∃ d : Duration,
    d.micros = seconds * microsPerSecond ∧ b' = ⟨b.pending.set .ackWait (.duration d)⟩ := by
  rw [set, Except.map_eq_ok_iff]
  simp only [← FieldKind.converts_iff]
  constructor
  · rintro ⟨w, hw, rfl⟩
    cases hw with
    | seconds hmicros => exact ⟨_, hmicros, rfl⟩
  · rintro ⟨d, hmicros, rfl⟩
    exact ⟨_, .seconds hmicros, rfl⟩

/-- Whole seconds can be set exactly if they lie in the days that a duration can have. -/
theorem exists_set_ackWait_int_iff : (∃ b', b.set .ackWait (.int seconds) = .ok b') ↔
    -999999999 * 86400 ≤ seconds ∧ seconds ≤ 999999999 * 86400 + 86399 := by
  rw [← Duration.exists_micros_eq_seconds_iff]
  simp only [set_ackWait_int_eq_ok_iff]
  constructor
  · rintro ⟨_, d, hmicros, -⟩
    exact ⟨d, hmicros⟩
  · rintro ⟨d, hmicros⟩
    exact ⟨_, d, hmicros, rfl⟩

/-- Whole seconds that were set are sent as their nanoseconds. -/
theorem sendsWait_of_set (h : b.set .ackWait (.int seconds) = .ok b') :
    b'.build.SendsWait (seconds * 1000000000) := by
  obtain ⟨d, hmicros, rfl⟩ := set_ackWait_int_eq_ok_iff.mp h
  have hnanos : seconds * 1000000000 = d.micros * 1000 := by
    rw [hmicros, show microsPerSecond = 1000000 from rfl]
    omega
  rw [hnanos]
  exact Configuration.sendsWait_of_ackWait rfl

end Builder

namespace Duration

/-- **Nanoseconds.** A duration has one set of days, seconds and microseconds; these have a thousand
nanoseconds to the microsecond, and from an integer of just so many the duration is read. From any
integer a duration is read exactly if the whole microseconds are one, counted downwards, and it has the
most nanoseconds in whole microseconds that the integer has; of two integers the greater one is read as
no shorter duration. Whole seconds are set as a wait exactly if they lie in the days that a duration can
have, and the wait is sent as exactly so many nanoseconds. -/
theorem nanoseconds_correspond :
    (∀ d : Duration,
      (∀ days s u, d.HasParts days s u ↔ days = d.days ∧ s = d.seconds ∧ u = d.microseconds) ∧
      FieldKind.nanoseconds (.duration d) = .ok (d.micros * 1000) ∧
      ∀ (ms : Members) (tag : Text), ms.get tag = .int (d.micros * 1000) →
        Document.read ms tag .duration = .ok (some (.duration d))) ∧
    (∀ (ms : Members) (tag : Text) (n : Int), ms.get tag = .int n →
      ((∃ o, Document.read ms tag .duration = .ok o) ↔ ∃ d : Duration, d.micros = n / 1000) ∧
      ∀ o, Document.read ms tag .duration = .ok o → ∃ d m, o = some (.duration d) ∧
        FieldKind.nanoseconds (.duration d) = .ok m ∧ IsGreatest {i | 1000 ∣ i ∧ i ≤ n} m) ∧
    (∀ (ms ms' : Members) (tag tag' : Text) (n n' : Int) (d d' : Duration), n ≤ n' →
      ms.get tag = .int n → ms'.get tag' = .int n' →
      Document.read ms tag .duration = .ok (some (.duration d)) →
      Document.read ms' tag' .duration = .ok (some (.duration d')) → d.micros ≤ d'.micros) ∧
    ∀ (b : Builder) (seconds : Int),
      ((∃ b', b.set .ackWait (.int seconds) = .ok b') ↔
        -999999999 * 86400 ≤ seconds ∧ seconds ≤ 999999999 * 86400 + 86399) ∧
      ∀ b', b.set .ackWait (.int seconds) = .ok b' → b'.build.SendsWait (seconds * 1000000000) := by
  refine ⟨fun d => ⟨?_, ?_, ?_⟩, ?_, ?_, fun b seconds => ⟨?_, ?_⟩⟩
  · intro days s u
    exact hasParts_iff
  · exact congrArg Except.ok d.nanoseconds_eq
  · intro ms tag hms
    exact Document.read_duration_of_nanoseconds hms
  · intro ms tag n hms
    refine ⟨Document.exists_read_duration_iff hms, fun o ho => ?_⟩
    obtain ⟨d, hmicros, rfl⟩ := (Document.read_duration_eq_ok_iff hms).mp ho
    exact ⟨d, d.nanoseconds, rfl, rfl, isGreatest_nanoseconds hmicros⟩
  · intro ms ms' tag tag' n n' d d'
    exact Document.read_duration_mono
  · exact Builder.exists_set_ackWait_int_iff
  · intro b' hb'
    exact Builder.sendsWait_of_set hb'

/-- One nanosecond below zero is read as one microsecond below zero. A wait of 9223372037 seconds below
zero is kept, but a word cannot hold it, which is reported. -/
theorem nanoseconds_correspond_below :
    (∃ d, Document.read [(.text "ack_wait", .int (-1))] "ack_wait" .duration =
        .ok (some (.duration d)) ∧ d.micros = -1 ∧ FieldKind.nanoseconds (.duration d) = .ok (-1000)) ∧
    ∃ b, (Builder.ofConfiguration none).set .ackWait (.int (-9223372037)) = .ok b ∧
      b.build.toMembers = .error
        (.encoding "integer exceeds 64-bit range" "ack_wait" (.int (-9223372037000000000))) := by
  obtain ⟨hexact, hread, -, hset⟩ := nanoseconds_correspond
  constructor
  · obtain ⟨hiff, hgreatest⟩ := hread [(.text "ack_wait", .int (-1))] "ack_wait" (-1) rfl
    obtain ⟨o, ho⟩ := hiff.mpr ⟨⟨-1, by decide, by decide⟩, rfl⟩
    obtain ⟨d, n, rfl, hn, hmost⟩ := hgreatest o ho
    obtain ⟨⟨⟨j, rfl⟩, hle⟩, hupper⟩ := hmost
    have hleast : -1000 ≤ 1000 * j := hupper ⟨by decide, by decide⟩
    have hmicros : d.micros * 1000 = 1000 * j := Except.ok.inj ((hexact d).2.1.symm.trans hn)
    obtain rfl : j = -1 := by
      have hle : 1000 * j ≤ -1 := hle
      omega
    exact ⟨d, ho, by omega, hn⟩
  · obtain ⟨hiff, hsends⟩ := hset (Builder.ofConfiguration none) (-9223372037)
    obtain ⟨b, hb⟩ := hiff.mpr (by decide)
    refine ⟨b, hb, (hsends b hb).refused (by decide) fun f hf => ?_⟩
    -- The fields before the wait are those of the builder that nothing was set in.
    have hf : f ≠ .ackWait := by
      rintro rfl
      revert hf
      decide
    obtain ⟨w, -, hget⟩ := Builder.get_set hb f
    rw [if_neg hf] at hget
    rw [show b.build.get f = Configuration.standard.get f from hget]
    apply (FieldKind.exists_encode_iff (Configuration.wellTyped_standard f)).mpr
    cases f <;> rfl

end Duration

end StreamConsumer
