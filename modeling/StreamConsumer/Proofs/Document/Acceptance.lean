import StreamConsumer.Proofs.Calendar.Date
import StreamConsumer.Proofs.Document.Faults
import StreamConsumer.Proofs.Json.Acceptance

/-!
# What the wire can carry

Of the values that a kind of field admits, the wire carries all but integers and durations beyond 64
bits and dates that UTC cannot tell: `Value.isSendable` tells which, and a field is encoded exactly if
it holds one of them, `exists_encode_iff`. What cannot be sent for its integer is reported under the
tag of the field, `encode_eq_error_of_wireInteger`. What is sent is plain as far as the field is a text,
`plain_iff_of_encode`.
-/

namespace StreamConsumer

namespace Value

/-- Whether the wire can carry a value that some kind of field admits: it needs 64 bits for an integer
and for the nanoseconds of a duration, and a clock in UTC for a date. -/
def isSendable : Value → Bool
  | int n => FitsWord n
  | duration d => FitsWord d.nanoseconds
  | dateTime d => d.HasUtc
  | _ => true

/-- The integer as which a value travels, if it travels as one. -/
def wireInteger? : Value → Option Int
  | int n => some n
  | duration d => some d.nanoseconds
  | _ => none

end Value

namespace FieldKind

variable {k : FieldKind} {tag : Text} {v : Value}

/-- A duration is encoded as the integer of its nanoseconds. -/
theorem encode_duration (tag : Text) (d : Duration) :
    encode .duration tag (.duration d) = encode .integer tag (.int d.nanoseconds) := by
  simp only [encode, nanoseconds, bind, Except.bind]
  rcases encodeInteger tag (.int d.nanoseconds) with e | n <;> rfl

/-- An integer is encoded exactly if it has 64 bits. -/
theorem exists_encode_integer_iff (tag : Text) (n : Int) :
    (∃ o, encode .integer tag (.int n) = .ok o) ↔ (Value.int n).isSendable = true := by
  simp only [encode, encodeInteger, Value.isSendable, decide_eq_true_eq]
  split
  · rename_i hn
    exact iff_of_true ⟨_, rfl⟩ hn
  · rename_i hn
    exact iff_of_false (by rintro ⟨o, ho⟩; cases ho) hn

/-- A value that the kind admits is encoded exactly if the wire can carry it. -/
theorem exists_encode_iff (hv : k.admits v = true) :
    (∃ o, k.encode tag v = .ok o) ↔ v.isSendable = true := by
  cases k with
  | text =>
    obtain rfl | ⟨t, rfl⟩ := admits_text hv <;> exact iff_of_true ⟨_, rfl⟩ rfl
  | integer =>
    obtain ⟨n, rfl⟩ := admits_integer hv
    exact exists_encode_integer_iff tag n
  | duration =>
    obtain ⟨d, rfl⟩ := admits_duration hv
    rw [encode_duration]
    exact exists_encode_integer_iff tag d.nanoseconds
  | date =>
    obtain rfl | ⟨d, rfl⟩ := admits_date hv
    · exact iff_of_true ⟨_, rfl⟩ rfl
    · by_cases hd : d.HasUtc
      · obtain ⟨t, ht⟩ := Option.isSome_iff_exists.mp ((Timestamp.render_isSome d).mpr hd)
        refine iff_of_true ⟨some (.text t), ?_⟩ (decide_eq_true hd)
        simp only [encode, Value.isNull, timestamp, ht]
        rfl
      · rw [encode_date_eq_error hd]
        exact iff_of_false (by simp) (by simpa [Value.isSendable] using hd)
  | policy vocabulary =>
    obtain ⟨p, rfl, -⟩ := admits_policy hv
    exact iff_of_true ⟨_, rfl⟩ rfl

/-- An integer beyond 64 bits is reported under the tag of its field. -/
theorem encode_eq_error_of_wireInteger (hv : k.admits v = true) {n : Int}
    (hn : v.wireInteger? = some n) (hfits : ¬ FitsWord n) :
    k.encode tag v = .error (.encoding "integer exceeds 64-bit range" tag (.int n)) := by
  have hinteger : encode .integer tag (.int n) =
      .error (.encoding "integer exceeds 64-bit range" tag (.int n)) :=
    congrArg (Except.map fun n => some (Value.int n)) (if_neg hfits)
  cases k with
  | text => obtain rfl | ⟨t, rfl⟩ := admits_text hv <;> cases hn
  | integer =>
    obtain ⟨m, rfl⟩ := admits_integer hv
    obtain rfl := Option.some.inj hn
    exact hinteger
  | duration =>
    obtain ⟨d, rfl⟩ := admits_duration hv
    obtain rfl := Option.some.inj hn
    rw [encode_duration, hinteger]
  | date => obtain rfl | ⟨d, rfl⟩ := admits_date hv <;> cases hn
  | policy vocabulary =>
    obtain ⟨p, rfl, -⟩ := admits_policy hv
    cases hn

/-- What is sent for a value that the kind admits is plain exactly as far as the value is a text. -/
theorem plain_iff_of_encode {P : Text → Prop} (hP : ∀ t : Text, t.IsScalar → P t)
    (hv : k.admits v = true) {w : Value} (h : k.encode tag v = .ok (some w)) (n : Nat) :
    w.Plain P n ↔ ∀ t, v = .text t → P t := by
  cases k with
  | text =>
    obtain rfl | ⟨t, rfl⟩ := admits_text hv
    · cases h
    · obtain rfl : Value.text t = w := Option.some.inj (Except.ok.inj h)
      rw [Value.plain_text_iff]
      simp
  | integer =>
    obtain ⟨m, rfl⟩ := admits_integer hv
    obtain ⟨m', hm, h⟩ := Except.map_eq_ok_iff.mp h
    obtain rfl := Option.some.inj h
    exact iff_of_true (.int n (encodeInteger_eq_ok hm).2) (by simp)
  | duration =>
    obtain ⟨d, rfl⟩ := admits_duration hv
    obtain ⟨hw, hfits⟩ := encode_duration_eq_ok h
    obtain rfl := Option.some.inj hw
    exact iff_of_true (.int n hfits) (by simp)
  | date =>
    obtain rfl | ⟨d, rfl⟩ := admits_date hv
    · cases h
    · obtain ⟨t, ht, h⟩ := Except.map_eq_ok_iff.mp h
      obtain rfl := Option.some.inj h
      obtain ⟨d', -, hrender⟩ := timestamp_eq_ok ht
      exact iff_of_true (.text n (hP t (Timestamp.isScalar_of_render hrender))) (by simp)
  | policy vocabulary =>
    obtain ⟨p, rfl, -⟩ := admits_policy hv
    obtain rfl : Value.text p.wire = w := Option.some.inj (Except.ok.inj h)
    exact iff_of_true (.text n (hP _ (isScalar_wire p))) (by simp)

end FieldKind

end StreamConsumer
