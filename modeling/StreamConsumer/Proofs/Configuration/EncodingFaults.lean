import StreamConsumer.Proofs.Configuration.Encoding
import StreamConsumer.Proofs.Document.Acceptance
import StreamConsumer.Proofs.Document.Faults
import StreamConsumer.Proofs.Json.Parts

/-!
# Faults of encoding

Whatever stands in the fields that are texts or integers and whatever the stream is, a configuration
whose policies, durations and dates are such is encoded or has an encoding error, with two exceptions
(`encodeRequest_isA_iff`).

* A start that UTC cannot tell is a fault from below. It surfaces exactly if no field that is written
  before the start is at fault, which the sequence number alone can be (`StartsBeyondUtc`).
* An integer of too many digits is a fault from below in the lenient dialect. The wire takes the stream
  and the fields that are texts as they are, so it can stand in these alone, and it surfaces exactly
  if it is the first of their parts without a notation and no other field is at fault
  (`MeetsOverlong`).
-/

namespace StreamConsumer

namespace Configuration

/-- The start is a date that UTC cannot tell, and the sequence number before it is fine. -/
def StartsBeyondUtc (c : Configuration) : Prop :=
  (∃ n, c.startSequence = .int n ∧ FitsWord n) ∧ ∃ d, c.startTime = .dateTime d ∧ ¬ d.HasUtc

variable {c : Configuration}

/-- Only the start is a date. -/
theorem eq_startTime_of_kind {f : Field} (h : f.kind = .date) : f = .startTime := by
  cases f <;> first | rfl | cases h

/-- A start that UTC cannot tell is the first fault exactly if the sequence number is fine. -/
theorem isFirstFault_startTime_iff
    (hc : ∀ f : Field, f.kind ≠ .text → f.kind ≠ .integer → f.kind.admits (c.get f) = true) :
    IsFirstFault (fun f => f.kind.encode f.tag (c.get f)) Field.wireOrder .startTime .dateRange ↔
      c.StartsBeyondUtc := by
  have hsplit : Field.wireOrder = [.durable, .deliverSubject, .deliverPolicy, .startSequence] ++
      Field.startTime :: Field.wireOrder.drop 5 := rfl
  rw [hsplit, isFirstFault_append_iff (by decide)]
  constructor
  · rintro ⟨hbefore, hfault⟩
    obtain ⟨o, ho⟩ := hbefore .startSequence (by simp)
    obtain ⟨n, hn, -⟩ := Except.map_eq_ok_iff.mp ho
    refine ⟨⟨n, FieldKind.encodeInteger_eq_ok hn⟩, ?_⟩
    obtain h | ⟨-, d, hd, hutc, -⟩ := FieldKind.encode_eq_error (hc .startTime) hfault
    · exact absurd h (Fault.not_isA rfl _)
    · exact ⟨d, hd, hutc⟩
  · rintro ⟨⟨n, hn, hfits⟩, d, hd, hutc⟩
    constructor
    · intro f hf
      simp only [List.mem_cons, List.not_mem_nil, or_false] at hf
      obtain rfl | rfl | rfl | rfl := hf
      · exact ⟨_, rfl⟩
      · exact ⟨_, rfl⟩
      · obtain ⟨p, hp, -⟩ := FieldKind.admits_policy (hc .deliverPolicy (by decide) (by decide))
        exact ⟨_, by rw [hp]; rfl⟩
      · refine ⟨some (.int n), ?_⟩
        rw [show c.get .startSequence = .int n from hn]
        exact congrArg (Except.map fun n => some (Value.int n)) (if_pos hfits)
    · rw [show c.get .startTime = .dateTime d from hd]
      exact FieldKind.encode_date_eq_error hutc

/-- The members of a configuration have an encoding error or a start that UTC cannot tell. -/
theorem toMembers_eq_error {e : Fault}
    (hc : ∀ f : Field, f.kind ≠ .text → f.kind ≠ .integer → f.kind.admits (c.get f) = true)
    (h : c.toMembers = .error e) :
    e.IsA (.report .encode) ∨ e = .dateRange ∧ c.StartsBeyondUtc := by
  obtain ⟨f, hf⟩ := membersOf_eq_error_iff.mp h
  obtain hfault | ⟨hk, d, hd, hutc, rfl⟩ := FieldKind.encode_eq_error (hc f) hf.fault
  · exact .inl hfault
  · obtain rfl := eq_startTime_of_kind hk
    exact .inr ⟨rfl, (isFirstFault_startTime_iff hc).mp hf⟩

/-- A start that UTC cannot tell ends encoding if the sequence number is fine. -/
theorem encodeRequest_of_startsBeyondUtc (d : Dialect)
    (hc : ∀ f : Field, f.kind ≠ .text → f.kind ≠ .integer → f.kind.admits (c.get f) = true)
    (stream : Value) (h : c.StartsBeyondUtc) : c.encodeRequest d stream = .error .dateRange := by
  have hmembers : c.toMembers = .error .dateRange :=
    membersOf_eq_error_iff.mpr ⟨.startTime, (isFirstFault_startTime_iff hc).mpr h⟩
  rw [encodeRequest, hmembers]
  rfl

/-! ### Integers of too many digits -/

/-- What the wire takes as it is: the stream and the fields that are texts, part by part in the order
in which they are written. -/
def openParts (c : Configuration) (stream : Value) : List Value :=
  [stream, c.durable, c.deliverSubject, c.filterSubject, c.sampleFrequency].flatMap Value.parts

/-- Every field but the texts holds what the wire can carry, an integer where it is for one. -/
def Sendable (c : Configuration) : Prop :=
  ∀ f : Field, f.kind ≠ .text →
    (f.kind = .integer → ∃ n, c.get f = .int n) ∧ (c.get f).isSendable = true

/-- Nothing stands in the way of the request but an integer of too many digits, the first of the parts
taken as they are that has no notation. -/
def MeetsOverlong (c : Configuration) (stream : Value) : Prop :=
  c.Sendable ∧ ∃ p, Value.firstGap? (c.openParts stream) = some p ∧ p.isOverlong = true

/-- There are members exactly if every field but the texts holds what the wire can carry. -/
theorem exists_toMembers_iff_sendable
    (hc : ∀ f : Field, f.kind ≠ .text → f.kind ≠ .integer → f.kind.admits (c.get f) = true) :
    (∃ ms, c.toMembers = .ok ms) ↔ c.Sendable := by
  have hfield (f : Field) : (∃ o, f.kind.encode f.tag (c.get f) = .ok o) ↔ (f.kind ≠ .text →
      (f.kind = .integer → ∃ n, c.get f = .int n) ∧ (c.get f).isSendable = true) := by
    have hadmits := hc f
    cases hkind : f.kind with
    | text => exact iff_of_true ⟨_, rfl⟩ (by simp)
    | integer =>
      constructor
      · rintro ⟨o, ho⟩ -
        obtain ⟨n, hn, -⟩ := Except.map_eq_ok_iff.mp ho
        obtain ⟨hv, hfits⟩ := FieldKind.encodeInteger_eq_ok hn
        exact ⟨fun _ => ⟨n, hv⟩, by rw [hv]; exact decide_eq_true hfits⟩
      · intro h
        obtain ⟨hinteger, hsendable⟩ := h (by simp)
        obtain ⟨n, hn⟩ := hinteger rfl
        rw [hn] at hsendable ⊢
        exact (FieldKind.exists_encode_integer_iff f.tag n).mpr hsendable
    | duration | date | policy =>
      rw [hkind] at hadmits
      rw [FieldKind.exists_encode_iff (hadmits (by simp) (by simp))]
      simp
  constructor
  · rintro ⟨ms, hms⟩ f
    exact (hfield f).mp ((membersOf_eq_ok_iff.mp hms).1 f (Field.mem_wireOrder f))
  · intro h
    exact ⟨_, membersOf_eq_ok_iff.mpr ⟨fun f _ => (hfield f).mpr (h f), rfl⟩⟩

/-- What stands on the wire for a field has gaps only where the field is a text, and there it is what
the field holds. -/
theorem firstGap?_sent {f : Field} {o : Option Value}
    (h : f.kind.encode f.tag (c.get f) = .ok o) :
    Value.firstGap? (o.elim [] Value.parts) =
      Value.firstGap? (if f.kind = .text then (c.get f).parts else []) := by
  cases hkind : f.kind with
  | text =>
    rw [hkind] at h
    obtain rfl := Except.ok.inj h
    cases c.get f <;> rfl
  | integer =>
    rw [hkind] at h
    obtain ⟨n, hn, rfl⟩ := Except.map_eq_ok_iff.mp h
    exact Value.firstGap?_cons (Value.hasNotation_of_fitsWord (FieldKind.encodeInteger_eq_ok hn).2) []
  | duration =>
    rw [hkind] at h
    obtain ⟨m, -, h⟩ := Except.bind_eq_ok_iff.mp h
    obtain ⟨n, hn, h⟩ := Except.bind_eq_ok_iff.mp h
    obtain rfl := Except.ok.inj h
    exact Value.firstGap?_cons (Value.hasNotation_of_fitsWord (FieldKind.encodeInteger_eq_ok hn).2) []
  | date =>
    rw [hkind, FieldKind.encode] at h
    split at h
    · obtain rfl := Except.ok.inj h
      rfl
    · obtain ⟨t, -, rfl⟩ := Except.map_eq_ok_iff.mp h
      rfl
  | policy =>
    rw [hkind] at h
    obtain ⟨t, -, rfl⟩ := Except.map_eq_ok_iff.mp h
    rfl

/-- The members of sent fields have the gaps of what is sent, since every tag has a notation. -/
theorem firstGap?_membersFrom (w : Field → Option Value) (fs : List Field) :
    Value.firstGap? (Value.partsOfMembers (membersFrom w fs)) =
      Value.firstGap? (fs.flatMap fun f => (w f).elim [] Value.parts) := by
  induction fs with
  | nil => rfl
  | cons f fs ih =>
    rw [List.flatMap_cons, Value.firstGap?_append, ← ih]
    rcases hw : w f with _ | v
    · rw [membersFrom_cons_none hw]
      rfl
    · rw [membersFrom_cons_some hw, Value.partsOfMembers, Value.firstGap?_cons rfl,
        Value.firstGap?_append]
      rfl

/-- A request has the gaps of what the wire takes as it is. -/
theorem firstGap?_request {ms : Members} (hms : c.toMembers = .ok ms) (stream : Value) :
    Value.firstGap? (request stream ms).parts = Value.firstGap? (c.openParts stream) := by
  obtain ⟨hall, rfl⟩ := membersOf_eq_ok_iff.mp hms
  have hfields : Value.firstGap? (Value.partsOfMembers (membersFrom c.sent Field.wireOrder)) =
      Value.firstGap? (Field.wireOrder.flatMap fun f =>
        if f.kind = .text then (c.get f).parts else []) := by
    rw [firstGap?_membersFrom]
    refine Value.firstGap?_flatMap_congr fun f hf => ?_
    obtain ⟨o, ho⟩ := hall f hf
    rw [sent_eq ho]
    exact firstGap?_sent ho
  have htexts : (Field.wireOrder.flatMap fun f => if f.kind = .text then (c.get f).parts else []) =
      [c.durable, c.deliverSubject, c.filterSubject, c.sampleFrequency].flatMap Value.parts := by
    simp [Field.wireOrder, Field.kind, get]
  have hrequest (ms : Members) : (request stream ms).parts =
      .text Document.streamTag :: (stream.parts ++
        (.text Document.configurationTag :: (Value.partsOfMembers ms ++ []))) := rfl
  rw [hrequest, Value.firstGap?_cons rfl, Value.firstGap?_append, Value.firstGap?_cons rfl,
    List.append_nil, hfields, htexts, ← Value.firstGap?_append, ← List.flatMap_cons, openParts]

/-- An integer of too many digits is reported exactly if nothing else stands in the way. -/
theorem write_request_digits_iff {ms : Members} (hms : c.toMembers = .ok ms) (stream : Value) :
    Json.write .lenient .compact (request stream ms) = .error .digits ↔
      ∃ p, Value.firstGap? (c.openParts stream) = some p ∧ p.isOverlong = true := by
  rw [← firstGap?_request hms]
  exact (Json.writeAt_tells rfl (request stream ms) 0).digits_iff

/-- In the lenient dialect such an integer ends encoding with a fault from below. -/
theorem encodeRequest_of_meetsOverlong
    (hc : ∀ f : Field, f.kind ≠ .text → f.kind ≠ .integer → f.kind.admits (c.get f) = true)
    {stream : Value} (h : c.MeetsOverlong stream) :
    c.encodeRequest .lenient stream = .error (.write .digits) := by
  obtain ⟨hsendable, hgap⟩ := h
  obtain ⟨ms, hms⟩ := (exists_toMembers_iff_sendable hc).mpr hsendable
  rw [encodeRequest_of_toMembers hms, (write_request_digits_iff hms stream).mpr hgap]
  rfl

/-! ### All faults -/

/-- A request is refused with an encoding error unless an integer has too many digits. -/
theorem isA_refusal {e : WriteError} (h : e ≠ .digits) : (refusal e).IsA (.report .encode) := by
  cases e with
  | digits => exact absurd rfl h
  | _ => exact ⟨_, rfl, .inl rfl⟩

/-- **Faults of encoding.** Let the policies, the duration and the start be such, and let all else be
anything, the stream included. Encoding fails with encoding errors alone exactly if the start can be
told in UTC or the sequence number before it is at fault, and, in the lenient dialect, no integer of
too many digits is what ends it. Otherwise it fails with a fault from below. -/
theorem encodeRequest_isA_iff (d : Dialect) {c : Configuration}
    (hc : ∀ f : Field, f.kind ≠ .text → f.kind ≠ .integer → f.kind.admits (c.get f) = true)
    (stream : Value) :
    ((∀ e, c.encodeRequest d stream = .error e → e.IsA (.report .encode)) ↔
        ¬ c.StartsBeyondUtc ∧ ¬ (d = .lenient ∧ c.MeetsOverlong stream)) ∧
      (c.StartsBeyondUtc → c.encodeRequest d stream = .error .dateRange) ∧
      (d = .lenient → c.MeetsOverlong stream →
        c.encodeRequest d stream = .error (.write .digits)) := by
  have hstart := encodeRequest_of_startsBeyondUtc d hc stream
  have hoverlong : d = .lenient → c.MeetsOverlong stream →
      c.encodeRequest d stream = .error (.write .digits) := by
    rintro rfl h
    exact encodeRequest_of_meetsOverlong hc h
  refine ⟨⟨?_, ?_⟩, hstart, hoverlong⟩
  · intro hall
    constructor
    · intro h
      exact Fault.not_isA rfl _ (hall _ (hstart h))
    · rintro ⟨hd, h⟩
      exact Fault.not_isA rfl _ (hall _ (hoverlong hd h))
  · rintro ⟨hutc, hdigits⟩ e he
    rcases hms : c.toMembers with e' | ms
    · rw [encodeRequest_of_toMembers_eq_error hms] at he
      obtain rfl := Except.error.inj he
      exact (toMembers_eq_error hc hms).elim id fun h => absurd h.2 hutc
    · rw [encodeRequest_of_toMembers hms] at he
      obtain ⟨cause, hcause, rfl⟩ := Except.mapError_eq_error_iff.mp he
      refine isA_refusal ?_
      rintro rfl
      cases d with
      | strict => exact Json.writeAt_strict_ne_digits rfl _ 0 hcause
      | lenient =>
        exact hdigits ⟨rfl, (exists_toMembers_iff_sendable hc).mp ⟨ms, hms⟩,
          (write_request_digits_iff hms stream).mp hcause⟩

/-- A stream that has no notation is an encoding error, and an integer of 4301 digits is a fault from
below. -/
theorem encodeRequest_foreign :
    (∃ e, standard.encodeRequest .lenient (.foreign 0) = .error e ∧ e.IsA (.report .encode)) ∧
      standard.encodeRequest .lenient (.int (Value.leastBeyond Dialect.maxDigits)) =
        .error (.write .digits) := by
  have hc : ∀ f : Field, f.kind ≠ .text → f.kind ≠ .integer →
      f.kind.admits (standard.get f) = true := fun f _ _ => wellTyped_standard f
  have hstart : ¬ standard.StartsBeyondUtc := by
    rintro ⟨-, d, hd, -⟩
    cases hd
  constructor
  · have hgap : ¬ standard.MeetsOverlong (.foreign 0) := by
      rintro ⟨-, p, hp, hoverlong⟩
      obtain rfl : Value.foreign 0 = p := Option.some.inj hp
      cases hoverlong
    have hfails : (standard.encodeRequest .lenient (.foreign 0)).isOk = false := by decide +kernel
    rcases h : standard.encodeRequest .lenient (.foreign 0) with e | t
    · exact ⟨e, rfl, (encodeRequest_isA_iff .lenient hc (.foreign 0)).1.mpr
        ⟨hstart, fun h => hgap h.2⟩ e h⟩
    · rw [h] at hfails
      cases hfails
  · refine (encodeRequest_isA_iff .lenient hc _).2.2 rfl ⟨?_, _, List.find?_cons_of_pos ?_, ?_⟩
    · intro f _
      have hinteger (hk : f.kind = .integer) : ∃ n, standard.get f = .int n :=
        FieldKind.admits_integer (hk ▸ wellTyped_standard f)
      exact ⟨hinteger, by cases f <;> decide⟩
    · simp [Value.hasNotation]
    · simp [Value.isOverlong]

/-- The start of the year 1 on a clock one hour east: in UTC that is the year before. -/
def earliest : Configuration where
  startTime := .dateTime ⟨⟨1, 1, 1, by decide, by decide, by decide, by decide, by decide, by decide⟩,
    ⟨0, by decide⟩, some ⟨3600000000, by decide, by decide⟩⟩

/-- Each of its fields holds a value that its kind admits. -/
theorem wellTyped_earliest : earliest.WellTyped := by
  intro f
  cases f <;> rfl

/-- It is well typed, and yet encoding it is a fault from below. -/
theorem encodeRequest_earliest : earliest.WellTyped ∧
    earliest.encodeRequest .strict (.text "S") = .error .dateRange ∧
      ¬ Fault.dateRange.IsA (.report .encode) := by
  refine ⟨wellTyped_earliest, encodeRequest_of_startsBeyondUtc .strict
    (fun f _ _ => wellTyped_earliest f) _ ?_, Fault.not_isA rfl _⟩
  exact ⟨⟨0, rfl, by decide⟩, _, rfl, by decide⟩

end Configuration

end StreamConsumer
