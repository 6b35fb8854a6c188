import StreamConsumer.Proofs.Configuration.Acceptance
import StreamConsumer.Proofs.Configuration.Decoding
import StreamConsumer.Proofs.Document.Decoding

/-!
# What was decoded, sent back

A configuration that an answer describes is well typed, and in the strict dialect it has no surrogates
and no integer beyond 64 bits. Yet not all of them can be sent back (`encodeRequest_of_decodeResponse_iff`):
the wait loses what is below a microsecond by rounding down, which takes the least integers of 64 bits
out of their range, and a start near either end of the calendar may have no clock in UTC.
-/

namespace StreamConsumer

/-- A duration that can be sent is none of the least ones. -/
theorem Duration.le_micros_of_isSendable {w : Duration}
    (h : (Value.duration w).isSendable = true) : -9223372036854775 ≤ w.micros := by
  have hleast := (of_decide_eq_true h).1
  rw [Duration.nanoseconds_eq] at hleast
  omega

/-- A date that can be sent has a clock in UTC. -/
theorem DateTime.hasUtc_of_isSendable {u : DateTime} (h : (Value.dateTime u).isSendable = true) :
    u.HasUtc := of_decide_eq_true h

namespace Configuration

variable {d : Dialect} {ms : Members} {c : Configuration}

/-- Only the wait holds a duration. -/
theorem eq_ackWait_of_duration (hc : c.WellTyped) {f : Field} {w : Duration}
    (hw : c.get f = .duration w) : f = .ackWait := by
  have hadmits := hc f
  rw [hw] at hadmits
  cases f <;> first | rfl | cases hadmits

/-- A field of a configuration that was read holds its default or what it was decoded to. -/
theorem get_of_readFields (h : readFields ms standard Field.all = .ok c) (f : Field) :
    ms.get f.tag = .null ∧ c.get f = f.default ∨
      f.kind.decode f.tag (ms.get f.tag) = .ok (c.get f) := by
  obtain ⟨hread, hget⟩ := readFields_eq_ok_iff.mp h
  obtain ⟨o, ho⟩ := hread f (Field.mem_all f)
  have hfield : c.get f = o.getD f.default := by
    rw [hget, if_pos (Field.mem_all f), taken_eq ho, get_standard]
  unfold Document.read at ho
  simp only at ho
  split at ho
  · rename_i hnull
    obtain rfl := Except.ok.inj ho
    exact .inl ⟨Value.isNull_iff.mp hnull, hfield⟩
  · obtain ⟨w, hw, rfl⟩ := Except.map_eq_ok_iff.mp ho
    exact .inr (hw.trans (congrArg Except.ok hfield.symm))

/-- A configuration that was read from a document is well typed. -/
theorem wellTyped_of_readFields (hms : (Value.dict ms).IsJson d)
    (h : readFields ms standard Field.all = .ok c) : c.WellTyped := by
  intro f
  obtain ⟨-, hdefault⟩ | hdecode := get_of_readFields h f
  · rw [hdefault]
    cases f <;> rfl
  · exact FieldKind.admits_of_decode (hms.get f.tag) hdecode

/-- A configuration that was read from a document of the strict dialect has no surrogates. -/
theorem isScalar_of_readFields (hms : (Value.dict ms).IsJson .strict)
    (h : readFields ms standard Field.all = .ok c) : c.IsScalar := by
  intro f
  obtain ⟨-, hdefault⟩ | hdecode := get_of_readFields h f
  · rw [hdefault]
    intro t ht
    cases f <;> cases ht
  · exact FieldKind.isScalar_of_decode (hms.get f.tag) hdecode

/-- **Sending back.** A configuration that was decoded in the strict dialect is encoded in it exactly if
its wait is none of the least durations and its start, if it has one, has a clock in UTC. -/
theorem encodeRequest_of_decodeResponse_iff {source : Value} {c : Configuration}
    (h : (decodeResponse .strict source).result = .ok c) {s : Text} (hs : s.IsScalar) :
    (∃ t, c.encodeRequest .strict (.text s) = .ok t) ↔
      (∀ w, c.ackWait = .duration w → -9223372036854775 ≤ w.micros) ∧
        ∀ u, c.startTime = .dateTime u → u.HasUtc := by
  obtain ⟨doc, ms, hload, hms, hread⟩ := exists_members_of_decodeResponse h
  have hjson : (Value.dict ms).IsJson .strict := hms ▸ (Document.isJson_of_load hload).get _
  have hc := wellTyped_of_readFields hjson hread
  have htexts : s.IsScalar ∧ c.IsScalar := ⟨hs, isScalar_of_readFields hjson hread⟩
  rw [exists_encodeRequest_iff hc s, and_iff_left fun _ => htexts]
  constructor
  · intro hsendable
    constructor
    · intro w hw
      exact Duration.le_micros_of_isSendable (hw ▸ hsendable .ackWait)
    · intro u hu
      exact DateTime.hasUtc_of_isSendable (hu ▸ hsendable .startTime)
  · rintro ⟨hwait, hstart⟩ f
    obtain ⟨-, hdefault⟩ | hdecode := get_of_readFields hread f
    · rw [hdefault]
      cases f <;> decide
    · refine FieldKind.isSendable_of_decode (hjson.get f.tag) hdecode ?_ ?_
      · intro w hw
        obtain rfl := eq_ackWait_of_duration hc hw
        exact hwait w hw
      · intro u hu
        obtain rfl := eq_startTime_of_dateTime hc hu
        exact hstart u hu

/-- An answer with the least wait that can be sent back, the greatest rate and a start that is the
first moment there is in UTC, on a clock half an hour east. -/
def boundaryAnswer : Text :=
  "\x7b\"config\":\x7b\"ack_wait\":-9223372036854775000,\"rate_limit_bps\":18446744073709551615," ++
    "\"opt_start_time\":\"0001-01-01T00:30:00+00:30\"\x7d\x7d"

/-- What it describes is sent back. -/
theorem encodeRequest_of_decodeResponse_boundary : ∃ c t,
    (decodeResponse .strict (.text boundaryAnswer)).result = .ok c ∧
      c.encodeRequest .strict (.text "ORDERS") = .ok t := by
  have hboth : ((decodeResponse .strict (.text boundaryAnswer)).result.toOption.map fun c =>
      (c.ackWait.isSendable, c.startTime.isSendable)) = some (true, true) := by decide +kernel
  obtain ⟨c, hc, hsendable⟩ := Option.map_eq_some_iff.mp hboth
  obtain ⟨hwait, hstart⟩ := Prod.mk.inj hsendable
  have hdecoded := Except.toOption_eq_some_iff.mp hc
  obtain ⟨t, ht⟩ := (encodeRequest_of_decodeResponse_iff hdecoded (s := "ORDERS") (by decide)).mpr
    ⟨fun w hw => Duration.le_micros_of_isSendable (hw ▸ hwait),
      fun u hu => DateTime.hasUtc_of_isSendable (hu ▸ hstart)⟩
  exact ⟨c, t, hdecoded, ht⟩

/-- An answer with the least integer of 64 bits for a wait. -/
def leastWait : Text := "\x7b\"config\":\x7b\"ack_wait\":-9223372036854775808\x7d\x7d"

/-- An answer with a start in the first hour of year 1 on a clock one hour east. -/
def firstHour : Text :=
  "\x7b\"config\":\x7b\"opt_start_time\":\"0001-01-01T00:30:00+01:00\"\x7d\x7d"

/-- The strict dialect decodes both and sends neither back. -/
theorem decoded_not_encoded :
    (∃ c, (decodeResponse .strict (.text leastWait)).result = .ok c ∧
      ∀ t, c.encodeRequest .strict (.text "S") ≠ .ok t) ∧
    ∃ c, (decodeResponse .strict (.text firstHour)).result = .ok c ∧
      ∀ t, c.encodeRequest .strict (.text "S") ≠ .ok t := by
  have hrefused {r : Except Fault Configuration}
      (h : (r.toOption.map fun c => (c.encodeRequest .strict (.text "S")).isOk) = some false) :
      ∃ c, r = .ok c ∧ ∀ t, c.encodeRequest .strict (.text "S") ≠ .ok t := by
    obtain ⟨c, hc, hfails⟩ := Option.map_eq_some_iff.mp h
    refine ⟨c, Except.toOption_eq_some_iff.mp hc, fun t ht => ?_⟩
    rw [ht] at hfails
    cases hfails
  exact ⟨hrefused (by decide +kernel), hrefused (by decide +kernel)⟩

end Configuration

end StreamConsumer
