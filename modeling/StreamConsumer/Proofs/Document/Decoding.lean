import StreamConsumer.Proofs.Document.Acceptance

/-!
# What a field is decoded to

Each kind of field takes one kind of value from a document and makes one kind of value of it; there is
one lemma for each kind, `decode_text_eq_ok` to `decode_policy_eq_ok`. What comes out is a value that the
kind admits (`admits_of_decode`). From the strict dialect it has no surrogates (`isScalar_of_decode`), and
the wire can carry it again unless it is one of the least durations or a date without a clock in UTC
(`isSendable_of_decode`).
-/

namespace StreamConsumer

/-- A duration is made from the microseconds that it has, and from no others. -/
theorem Duration.ofMicros_eq_ok_iff {micros : Int} {u : Duration} :
    ofMicros micros = .ok u ↔ u.micros = micros := by
  constructor
  · intro h
    unfold ofMicros at h
    split at h
    · obtain rfl := Except.ok.inj h
      rfl
    · simp only at h
      split at h <;> cases h
  · rintro rfl
    exact u.ofMicros_micros

namespace FieldKind

variable {tag : Text} {v w : Value} {d : Dialect}

/-- A text that was decoded is the text of the value. -/
theorem decodeText_eq_ok {t : Text} (h : decodeText tag v = .ok t) : v.text? = some t := by
  unfold decodeText at h
  split at h
  · rename_i ht
    rw [ht, Except.ok.inj h]
  · cases h

/-- For a text the value is kept. -/
theorem decode_text_eq_ok (h : decode .text tag v = .ok w) : (∃ t, v.text? = some t) ∧ w = v := by
  obtain ⟨t, ht, rfl⟩ := Except.map_eq_ok_iff.mp h
  exact ⟨⟨t, decodeText_eq_ok ht⟩, rfl⟩

/-- For an integer the value is kept, and it is an integer. -/
theorem decode_integer_eq_ok (h : decode .integer tag v = .ok w) : ∃ n, v = .int n ∧ w = .int n := by
  obtain ⟨n, hn, rfl⟩ := Except.map_eq_ok_iff.mp h
  exact ⟨n, decodeInteger_eq_ok hn, rfl⟩

/-- An integer is decoded as the duration of its whole microseconds, counted downwards. -/
theorem decode_duration_int_eq_ok_iff {n : Int} : decode .duration tag (.int n) = .ok w ↔
    ∃ u : Duration, u.micros = n / 1000 ∧ w = .duration u := by
  constructor
  · intro h
    obtain ⟨_, ⟨⟩, h⟩ := Except.bind_eq_ok_iff.mp h
    obtain ⟨u, hu, h⟩ := Except.bind_eq_ok_iff.mp h
    have hmicros := Duration.ofMicros_eq_ok_iff.mp (Except.mapError_eq_ok_iff.mp hu)
    exact ⟨u, hmicros, (Except.ok.inj h).symm⟩
  · rintro ⟨u, hmicros, rfl⟩
    have hduration : durationOfNanoseconds n = .ok u :=
      Except.mapError_eq_ok_iff.mpr (Duration.ofMicros_eq_ok_iff.mpr hmicros)
    simp only [decode, decodeInteger, bind, Except.bind, hduration]
    rfl

/-- For a duration the value is an integer, of which whole microseconds are kept. -/
theorem decode_duration_eq_ok (h : decode .duration tag v = .ok w) :
    ∃ n u, v = .int n ∧ w = .duration u ∧ u.micros = n / 1000 := by
  obtain ⟨n, hn, -⟩ := Except.bind_eq_ok_iff.mp h
  obtain rfl := decodeInteger_eq_ok hn
  obtain ⟨u, hmicros, hw⟩ := decode_duration_int_eq_ok_iff.mp h
  exact ⟨n, u, rfl, hw, hmicros⟩

/-- For a date the value is a text that is a timestamp. -/
theorem decode_date_eq_ok (h : decode .date tag v = .ok w) :
    ∃ t u, v.text? = some t ∧ Timestamp.parse t = .ok u ∧ w = .dateTime u := by
  obtain ⟨t, ht, h⟩ := Except.bind_eq_ok_iff.mp h
  split at h
  · rename_i u hu
    exact ⟨t, u, decodeText_eq_ok ht, hu, (Except.ok.inj h).symm⟩
  · cases h

/-- For a policy the value is a word of the vocabulary. -/
theorem decode_policy_eq_ok {vocabulary : Vocabulary} (h : decode (.policy vocabulary) tag v = .ok w) :
    ∃ t p, v.text? = some t ∧ vocabulary.ofWire? t = some p ∧ w = .policy p := by
  obtain ⟨t, ht, h⟩ := Except.bind_eq_ok_iff.mp h
  split at h
  · rename_i p hp
    exact ⟨t, p, decodeText_eq_ok ht, hp, (Except.ok.inj h).symm⟩
  · cases h

/-- The texts of a document are texts. -/
theorem eq_text_of_isJson (hv : v.IsJson d) {t : Text} (ht : v.text? = some t) : v = .text t := by
  cases hv <;> cases ht
  rfl

/-- What a field of a document is decoded to is a value that its kind admits. -/
theorem admits_of_decode {k : FieldKind} (hv : v.IsJson d) (h : k.decode tag v = .ok w) :
    k.admits w = true := by
  cases k with
  | text =>
    obtain ⟨⟨t, ht⟩, rfl⟩ := decode_text_eq_ok h
    rw [eq_text_of_isJson hv ht]
    rfl
  | integer =>
    obtain ⟨n, -, rfl⟩ := decode_integer_eq_ok h
    rfl
  | duration =>
    obtain ⟨n, u, -, rfl, -⟩ := decode_duration_eq_ok h
    rfl
  | date =>
    obtain ⟨t, u, -, -, rfl⟩ := decode_date_eq_ok h
    rfl
  | policy vocabulary =>
    obtain ⟨t, p, -, hp, rfl⟩ := decode_policy_eq_ok h
    exact beq_iff_eq.mpr (Vocabulary.ofWire?_eq_some hp).1

/-- What a field of a document of the strict dialect is decoded to is no text with surrogates. -/
theorem isScalar_of_decode {k : FieldKind} (hv : v.IsJson .strict) (h : k.decode tag v = .ok w) :
    w.IsScalar := by
  intro t ht
  cases k with
  | text =>
    obtain ⟨-, rfl⟩ := decode_text_eq_ok h
    subst ht
    cases hv with
    | text hadmits => exact hadmits rfl
  | integer =>
    obtain ⟨n, -, rfl⟩ := decode_integer_eq_ok h
    cases ht
  | duration =>
    obtain ⟨n, u, -, rfl, -⟩ := decode_duration_eq_ok h
    cases ht
  | date =>
    obtain ⟨t, u, -, -, rfl⟩ := decode_date_eq_ok h
    cases ht
  | policy vocabulary =>
    obtain ⟨t, p, -, -, rfl⟩ := decode_policy_eq_ok h
    cases ht

/-- What a field of a document of the strict dialect is decoded to can be sent, unless it is one of the
least durations or a date without a clock in UTC. -/
theorem isSendable_of_decode {k : FieldKind} (hv : v.IsJson .strict) (h : k.decode tag v = .ok w)
    (hwait : ∀ u, w = .duration u → -9223372036854775 ≤ u.micros)
    (hstart : ∀ u, w = .dateTime u → u.HasUtc) : w.isSendable = true := by
  have hword {n : Int} (hn : v = .int n) : FitsWord n := by
    subst hn
    cases hv with
    | int hadmits => exact of_decide_eq_true hadmits
  cases k with
  | text =>
    obtain ⟨⟨t, ht⟩, rfl⟩ := decode_text_eq_ok h
    rw [eq_text_of_isJson hv ht]
    rfl
  | integer =>
    obtain ⟨n, hn, rfl⟩ := decode_integer_eq_ok h
    exact decide_eq_true (hword hn)
  | duration =>
    obtain ⟨n, u, hn, rfl, hmicros⟩ := decode_duration_eq_ok h
    have hleast := hwait u rfl
    obtain ⟨-, hgreatest⟩ := hword hn
    refine decide_eq_true ?_
    rw [Duration.nanoseconds_eq]
    constructor <;> omega
  | date =>
    obtain ⟨t, u, -, -, rfl⟩ := decode_date_eq_ok h
    exact decide_eq_true (hstart u rfl)
  | policy vocabulary =>
    obtain ⟨t, p, -, -, rfl⟩ := decode_policy_eq_ok h
    rfl

end FieldKind

end StreamConsumer
