import StreamConsumer.Proofs.Document.Codec
import StreamConsumer.Proofs.Json.Reading

/-!
# Faults of documents and their fields

What can go wrong with a document and with a field of each kind. A document that is loaded or an object
that is looked for has a decoding error. A field that is decoded has a decoding error, the only
exception being an integer that stands for no duration (`decode_eq_error`). A field that is encoded has
an encoding error if its kind admits the value or asks nothing of it, the only exception being a date
that UTC cannot tell (`encode_eq_error`).
-/

namespace StreamConsumer

namespace Fault

/-- A fault is an error of a class or of one below it. -/
def IsA (e : Fault) (c : ErrorClass) : Prop :=
  ∃ own, e.ownClass? = some own ∧ (own = c ∨ c ∈ own.ancestors)

/-- A report about a field that was read is a decoding error. -/
theorem isA_decoding (description tag : Text) (v : Value) :
    (decoding description tag v).IsA (.report .decode) := ⟨_, rfl, .inl rfl⟩

/-- A report about a field that was to be sent is an encoding error. -/
theorem isA_encoding (description tag : Text) (v : Value) :
    (encoding description tag v).IsA (.report .encode) := ⟨_, rfl, .inl rfl⟩

/-- A fault from below is no error of the library. -/
theorem not_isA {e : Fault} (h : e.ownClass? = none) (c : ErrorClass) : ¬ e.IsA c := by
  rintro ⟨own, hown, -⟩
  rw [h] at hown
  cases hown

end Fault

namespace Duration

/-- A number of microseconds is a duration. -/
def Spans (micros : Int) : Prop :=
  -999999999 * microsPerDay ≤ micros ∧ micros < 1000000000 * microsPerDay

/-- Whether a number of microseconds is in range can be decided. -/
instance (micros : Int) : Decidable (Spans micros) := inferInstanceAs (Decidable (_ ∧ _))

/-- The microseconds that make no duration make a fault. -/
theorem ofMicros_eq_error {micros : Int} {e : DurationError} (h : ofMicros micros = .error e) :
    ¬ Spans micros := by
  intro hspans
  unfold Spans at hspans
  rw [ofMicros, dif_pos hspans] at h
  cases h

/-- A number of microseconds out of range is refused. -/
theorem exists_ofMicros_eq_error {micros : Int} (h : ¬ Spans micros) :
    ∃ e, ofMicros micros = .error e := by
  unfold Spans at h
  rw [ofMicros, dif_neg h]
  exact ⟨_, (apply_ite Except.error _ _ _).symm⟩

/-- The nanoseconds that a word can hold are a duration. -/
theorem spans_of_fitsWord {n : Int} (h : FitsWord n) : Spans (n / 1000) := by
  have hday : microsPerDay = 86400 * 1000000 := rfl
  simp only [Spans, hday]
  obtain ⟨hleast, hgreatest⟩ := h
  omega

end Duration

namespace FieldKind

/-! ### From the wire -/

/-- A value that is no text is a decoding error. -/
theorem decodeText_eq_error {tag : Text} {v : Value} {e : Fault} (h : decodeText tag v = .error e) :
    e.IsA (.report .decode) := by
  unfold decodeText at h
  split at h
  · simp at h
  · obtain rfl := Except.error.inj h
    exact Fault.isA_decoding _ _ _

/-- An integer that was decoded is the value. -/
theorem decodeInteger_eq_ok {tag : Text} {v : Value} {n : Int} (h : decodeInteger tag v = .ok n) :
    v = .int n := by
  unfold decodeInteger at h
  split at h
  · exact congrArg Value.int (Except.ok.inj h)
  · simp at h

/-- A value that is no integer is a decoding error. -/
theorem decodeInteger_eq_error {tag : Text} {v : Value} {e : Fault}
    (h : decodeInteger tag v = .error e) : e.IsA (.report .decode) := by
  unfold decodeInteger at h
  split at h
  · simp at h
  · obtain rfl := Except.error.inj h
    exact Fault.isA_decoding _ _ _

/-- A decoded field has a decoding error, or it is an integer that makes no duration. -/
theorem decode_eq_error {k : FieldKind} {tag : Text} {v : Value} {e : Fault}
    (h : k.decode tag v = .error e) : e.IsA (.report .decode) ∨
      k = .duration ∧ ∃ n cause, v = .int n ∧ ¬ Duration.Spans (n / 1000) ∧ e = .duration cause := by
  cases k with
  | text => exact .inl (decodeText_eq_error (Except.map_eq_error_iff.mp h))
  | integer => exact .inl (decodeInteger_eq_error (Except.map_eq_error_iff.mp h))
  | duration =>
    obtain h | ⟨n, hn, h⟩ := Except.bind_eq_error_iff.mp h
    · exact .inl (decodeInteger_eq_error h)
    · obtain h | ⟨d, -, h⟩ := Except.bind_eq_error_iff.mp h
      · obtain ⟨cause, hcause, rfl⟩ := Except.mapError_eq_error_iff.mp h
        exact .inr ⟨rfl, n, cause, decodeInteger_eq_ok hn, Duration.ofMicros_eq_error hcause, rfl⟩
      · cases h
  | date =>
    obtain h | ⟨t, -, h⟩ := Except.bind_eq_error_iff.mp h
    · exact .inl (decodeText_eq_error h)
    · split at h
      · cases h
      · obtain rfl := Except.error.inj h
        exact .inl (Fault.isA_decoding _ _ _)
  | policy vocabulary =>
    obtain h | ⟨word, -, h⟩ := Except.bind_eq_error_iff.mp h
    · exact .inl (decodeText_eq_error h)
    · split at h
      · cases h
      · obtain rfl := Except.error.inj h
        exact .inl ⟨_, rfl, .inr List.mem_cons_self⟩

/-- An integer that makes no duration is a fault from below. -/
theorem exists_decode_duration_eq_error (tag : Text) {n : Int} (h : ¬ Duration.Spans (n / 1000)) :
    ∃ cause, decode .duration tag (.int n) = .error (.duration cause) := by
  obtain ⟨cause, hcause⟩ := Duration.exists_ofMicros_eq_error h
  have hduration : durationOfNanoseconds n = .error (.duration cause) :=
    Except.mapError_eq_error_iff.mpr ⟨cause, hcause, rfl⟩
  refine ⟨cause, ?_⟩
  simp only [decode, decodeInteger, hduration, bind, Except.bind]

/-! ### To the wire -/

/-- A value that is no integer of 64 bits is an encoding error. -/
theorem encodeInteger_eq_error {tag : Text} {v : Value} {e : Fault}
    (h : encodeInteger tag v = .error e) : e.IsA (.report .encode) := by
  unfold encodeInteger at h
  split at h
  · split at h
    · simp at h
    · obtain rfl := Except.error.inj h
      exact Fault.isA_encoding _ _ _
  · obtain rfl := Except.error.inj h
    exact Fault.isA_encoding _ _ _

/-- A date that UTC cannot tell is a fault from below. -/
theorem timestamp_of_not_hasUtc {d : DateTime} (h : ¬ d.HasUtc) :
    timestamp (.dateTime d) = .error .dateRange := by
  rw [timestamp, Timestamp.render_eq_none_iff.mpr h]

/-- A date that UTC cannot tell is a fault from below where it is encoded. -/
theorem encode_date_eq_error {tag : Text} {d : DateTime} (h : ¬ d.HasUtc) :
    encode .date tag (.dateTime d) = .error .dateRange :=
  Except.map_eq_error_iff.mpr (timestamp_of_not_hasUtc h)

/-- An encoded field has an encoding error, or it is a date that UTC cannot tell, provided that the
kind of the field admits the value or asks nothing of it. -/
theorem encode_eq_error {k : FieldKind} {tag : Text} {v : Value} {e : Fault}
    (hv : k ≠ .text → k ≠ .integer → k.admits v = true) (h : k.encode tag v = .error e) :
    e.IsA (.report .encode) ∨
      k = .date ∧ ∃ d, v = .dateTime d ∧ ¬ d.HasUtc ∧ e = .dateRange := by
  cases k with
  | text => cases h
  | integer => exact .inl (encodeInteger_eq_error (Except.map_eq_error_iff.mp h))
  | duration =>
    obtain ⟨d, rfl⟩ := admits_duration (hv (by decide) (by decide))
    obtain h | ⟨n, -, h⟩ := Except.bind_eq_error_iff.mp h
    · cases h
    · obtain h | ⟨m, -, h⟩ := Except.bind_eq_error_iff.mp h
      · exact .inl (encodeInteger_eq_error h)
      · cases h
  | date =>
    obtain rfl | ⟨d, rfl⟩ := admits_date (hv (by decide) (by decide))
    · cases h
    · by_cases hd : d.HasUtc
      · obtain ⟨t, ht⟩ := Option.isSome_iff_exists.mp ((Timestamp.render_isSome d).mpr hd)
        simp only [encode, Value.isNull, timestamp, ht] at h
        cases h
      · rw [encode_date_eq_error hd] at h
        exact .inr ⟨rfl, d, rfl, hd, (Except.error.inj h).symm⟩
  | policy vocabulary =>
    obtain ⟨p, rfl, -⟩ := admits_policy (hv (by simp) (by simp))
    cases h

end FieldKind

namespace Document

variable {d : Dialect} {source : Value} {e : Fault}

/-- What is loaded in a dialect is of that dialect. -/
theorem isJson_of_load {doc : Members} (h : load d source = .ok doc) :
    (Value.dict doc).IsJson d := by
  unfold load at h
  split at h
  · simp at h
  · rename_i ms hread
    obtain rfl := Except.ok.inj h
    exact Json.isJson_of_readSource hread
  · simp at h

/-- A document that cannot be loaded is a decoding error. -/
theorem load_eq_error (h : load d source = .error e) : e.IsA (.report .decode) := by
  unfold load at h
  split at h
  · obtain rfl := Except.error.inj h
    exact ⟨_, rfl, .inl rfl⟩
  · simp at h
  · obtain rfl := Except.error.inj h
    exact ⟨_, rfl, .inl rfl⟩

/-- What is taken for an object is a dictionary. -/
theorem object_eq_ok {tag : Text} {v : Value} {ms : Members} (h : object tag v = .ok ms) :
    v = .dict ms := by
  unfold object at h
  split at h
  · exact congrArg Value.dict (Except.ok.inj h)
  · simp at h

/-- What is no object is a decoding error. -/
theorem object_eq_error {tag : Text} {v : Value} (h : object tag v = .error e) :
    e.IsA (.report .decode) := by
  unfold object at h
  split at h
  · simp at h
  · obtain rfl := Except.error.inj h
    exact Fault.isA_decoding _ _ _

/-- A field that is read has a decoding error, or it is an integer that makes no duration. -/
theorem read_eq_error {ms : Members} {tag : Text} {k : FieldKind} (h : read ms tag k = .error e) :
    e.IsA (.report .decode) ∨ k = .duration ∧ ∃ n cause, ms.get tag = .int n ∧
      ¬ Duration.Spans (n / 1000) ∧ e = .duration cause := by
  unfold read at h
  simp only at h
  split at h
  · simp at h
  · exact FieldKind.decode_eq_error (Except.map_eq_error_iff.mp h)

end Document

end StreamConsumer
