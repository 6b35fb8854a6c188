import StreamConsumer.Proofs.Configuration.Decoding
import StreamConsumer.Proofs.Document.Faults

/-!
# Faults of decoding

Whatever an answer is, decoding it comes to a configuration or to an error of the library, with one
exception: a wait that is an integer but stands for no duration is a fault from below
(`decoding_isA_iff`). It surfaces exactly if no field that is read before the wait is at fault, and
only in the lenient dialect: the integers of the strict one are too small for it (`spans_of_fitsWord`).
-/

namespace StreamConsumer

namespace Configuration

/-- The wait is an integer that makes no duration, and no field before it is at fault. -/
def WaitsBeyondDuration (ms : Members) : Prop :=
  (∃ n, ms.get Field.ackWait.tag = .int n ∧ ¬ Duration.Spans (n / 1000)) ∧
    ∀ f ∈ Field.all.takeWhile (· ≠ .ackWait), ∃ o, Document.read ms f.tag f.kind = .ok o

/-- A document of the lenient dialect has a configuration whose wait is such. -/
def WaitEscapes (d : Dialect) (doc : Members) : Prop :=
  d = .lenient ∧ ∃ ms, doc.get Document.configurationTag = .dict ms ∧ WaitsBeyondDuration ms

variable {d : Dialect} {source : Value} {ms : Members} {c : Configuration} {e : Fault}

/-- Only the wait is a duration. -/
theorem eq_ackWait_of_kind {f : Field} (h : f.kind = .duration) : f = .ackWait := by
  cases f <;> first | rfl | cases h

/-- A wait that makes no duration is the first fault exactly if no field before it is at fault. -/
theorem exists_isFirstFault_ackWait_iff :
    (∃ cause, IsFirstFault (fun f => Document.read ms f.tag f.kind) Field.all .ackWait
      (.duration cause)) ↔ WaitsBeyondDuration ms := by
  have hsplit : Field.all = Field.all.takeWhile (· ≠ .ackWait) ++
      Field.ackWait :: Field.all.drop 7 := rfl
  constructor
  · rintro ⟨cause, h⟩
    rw [hsplit, isFirstFault_append_iff (by decide)] at h
    obtain hown | ⟨-, n, -, hn, hspans, -⟩ := Document.read_eq_error h.2
    · exact absurd hown (Fault.not_isA rfl _)
    · exact ⟨⟨n, hn, hspans⟩, h.1⟩
  · rintro ⟨⟨n, hn, hspans⟩, hbefore⟩
    obtain ⟨cause, hcause⟩ :=
      FieldKind.exists_decode_duration_eq_error Field.ackWait.tag hspans
    refine ⟨cause, ?_⟩
    rw [hsplit, isFirstFault_append_iff (by decide)]
    refine ⟨hbefore, ?_⟩
    simp only [Document.read, hn, Value.isNull]
    exact Except.map_eq_error_iff.mpr hcause

/-- The fields of a configuration have a decoding error or a wait that makes no duration. -/
theorem readFields_all_eq_error (h : readFields ms c Field.all = .error e) :
    e.IsA (.report .decode) ∨ WaitsBeyondDuration ms ∧ ∃ cause, e = .duration cause := by
  obtain ⟨f, hf⟩ := readFields_eq_error_iff.mp h
  obtain hown | ⟨hk, n, cause, -, -, rfl⟩ := Document.read_eq_error hf.fault
  · exact .inl hown
  · obtain rfl := eq_ackWait_of_kind hk
    exact .inr ⟨exists_isFirstFault_ackWait_iff.mp ⟨cause, hf⟩, cause, rfl⟩

/-- A wait that makes no duration ends reading if no field before it is at fault. -/
theorem readFields_of_waitsBeyondDuration (h : WaitsBeyondDuration ms) :
    ∃ cause, readFields ms c Field.all = .error (.duration cause) := by
  obtain ⟨cause, hcause⟩ := exists_isFirstFault_ackWait_iff.mpr h
  exact ⟨cause, readFields_eq_error_iff.mpr ⟨_, hcause⟩⟩

/-- The strict dialect has no integer that makes no duration. -/
theorem lenient_of_waitsBeyondDuration (hms : (Value.dict ms).IsJson d)
    (h : WaitsBeyondDuration ms) : d = .lenient := by
  obtain ⟨⟨n, hn, hspans⟩, -⟩ := h
  have hjson := hms.get Field.ackWait.tag
  rw [hn] at hjson
  cases hjson with
  | int hadmits =>
    cases d with
    | strict => exact absurd (Duration.spans_of_fitsWord (of_decide_eq_true hadmits)) hspans
    | lenient => rfl

/-- What a document comes to from its configuration on: errors of the library alone, unless its wait
escapes, and then a fault from below. -/
theorem object_readFields_isA {doc : Members} (hdoc : (Value.dict doc).IsJson d) :
    (∀ e, (Document.object Document.configurationTag (doc.get Document.configurationTag) >>=
        fun ms => readFields ms c Field.all) = .error e →
      e.IsA (.report .decode) ∨ WaitEscapes d doc) ∧
    (WaitEscapes d doc → ∃ cause, (Document.object Document.configurationTag
        (doc.get Document.configurationTag) >>= fun ms => readFields ms c Field.all) =
      .error (.duration cause)) := by
  constructor
  · intro e he
    obtain he | ⟨ms, hobject, he⟩ := Except.bind_eq_error_iff.mp he
    · exact .inl (Document.object_eq_error he)
    · have hms := Document.object_eq_ok hobject
      have hjson := hdoc.get Document.configurationTag
      rw [hms] at hjson
      refine (readFields_all_eq_error he).imp_right fun ⟨hwait, _⟩ => ?_
      exact ⟨lenient_of_waitsBeyondDuration hjson hwait, ms, hms, hwait⟩
  · rintro ⟨-, ms, hms, hwait⟩
    obtain ⟨cause, hcause⟩ := readFields_of_waitsBeyondDuration (c := c) hwait
    refine ⟨cause, ?_⟩
    rw [hms]
    exact hcause

/-- What an answer comes to: decoding errors alone, unless its wait escapes. -/
theorem decodeResponse_eq_error (h : (decodeResponse d source).result = .error e) :
    e.IsA (.report .decode) ∨ ∃ doc, Document.load d source = .ok doc ∧ WaitEscapes d doc := by
  rw [result_decodeResponse] at h
  obtain h | ⟨doc, hdoc, h⟩ := Except.bind_eq_error_iff.mp h
  · exact .inl (Document.load_eq_error h)
  · simp only at h
    split at h
    · obtain rfl := Except.error.inj h
      exact .inl (Fault.isA_decoding _ _ _)
    · exact ((object_readFields_isA (Document.isJson_of_load hdoc)).1 e h).imp_right fun hwait =>
        ⟨doc, hdoc, hwait⟩

/-- A wait that is no duration ends decoding with a fault from below. -/
theorem decodeResponse_of_waitEscapes {doc : Members} (hdoc : Document.load d source = .ok doc)
    (hwait : WaitEscapes d doc) :
    ∃ cause, (decodeResponse d source).result = .error (.duration cause) := by
  obtain ⟨cause, hcause⟩ :=
    (object_readFields_isA (c := .standard) (Document.isJson_of_load hdoc)).2 hwait
  obtain ⟨-, ms, hms, -⟩ := hwait
  refine ⟨cause, ?_⟩
  rw [hms] at hcause
  rw [result_decodeResponse, hdoc]
  simp only [bind, Except.bind, hms, Value.isNull, Bool.false_eq_true, if_false]
  exact hcause

end Configuration

namespace CreateRequest

variable {d : Dialect} {source : Value} {doc : Members} {e : Fault}

/-- What is reported: nothing where there is no error, else the object that describes it. -/
theorem reportedError_eq (doc : Members) : reportedError doc =
    if (doc.get Document.errorTag).isNull then .ok ()
    else Document.object Document.errorTag (doc.get Document.errorTag) >>= fun ms =>
      .error (.api (ApiError.ofMembers ms)) := rfl

/-- An answer reports no error only if there is nothing under its tag. -/
theorem reportedError_eq_ok {u : Unit} (h : reportedError doc = .ok u) :
    doc.get Document.errorTag = .null := by
  rw [reportedError_eq] at h
  split at h
  · exact Value.isNull_iff.mp ‹_›
  · obtain ⟨ms, -, h⟩ := Except.bind_eq_ok_iff.mp h
    cases h

/-- Where there is nothing under the tag no error is reported. -/
theorem reportedError_of_null (h : doc.get Document.errorTag = .null) :
    reportedError doc = .ok () := by
  rw [reportedError_eq, h]
  rfl

/-- What the server reports is an error of the library. -/
theorem reportedError_eq_error (h : reportedError doc = .error e) :
    e.IsA (.report .decode) ∨ e.IsA (.api .other) := by
  rw [reportedError_eq] at h
  split at h
  · simp at h
  · obtain h | ⟨ms, -, h⟩ := Except.bind_eq_error_iff.mp h
    · exact .inl (Document.object_eq_error h)
    · obtain rfl := Except.error.inj h
      refine .inr ⟨_, rfl, ?_⟩
      rcases (ApiError.ofMembers ms).status with _ | _ | _ | _ | _
      · exact .inl rfl
      all_goals exact .inr List.mem_cons_self

/-- What an answer to a create request comes to: errors of the library alone, unless no error is
reported and the wait escapes. -/
theorem parseResponse_eq_error (h : (parseResponse d source).result = .error e) :
    (e.IsA (.report .decode) ∨ e.IsA (.api .other)) ∨
      ∃ doc, Document.load d source = .ok doc ∧ doc.get Document.errorTag = .null ∧
        Configuration.WaitEscapes d doc := by
  rw [result_parseResponse] at h
  obtain h | ⟨doc, hdoc, h⟩ := Except.bind_eq_error_iff.mp h
  · exact .inl (.inl (Document.load_eq_error h))
  · obtain h | ⟨u, hu, h⟩ := Except.bind_eq_error_iff.mp h
    · exact .inl (reportedError_eq_error h)
    · obtain hown | hwait :=
        (Configuration.object_readFields_isA (Document.isJson_of_load hdoc)).1 e h
      · exact .inl (.inl hown)
      · exact .inr ⟨doc, hdoc, reportedError_eq_ok hu, hwait⟩

/-- The same wait ends the reading of an answer that reports no error. -/
theorem parseResponse_of_waitEscapes (hdoc : Document.load d source = .ok doc)
    (herror : doc.get Document.errorTag = .null) (hwait : Configuration.WaitEscapes d doc) :
    ∃ cause, (parseResponse d source).result = .error (.duration cause) := by
  obtain ⟨cause, hcause⟩ := (Configuration.object_readFields_isA (c := .standard)
    (Document.isJson_of_load hdoc)).2 hwait
  refine ⟨cause, ?_⟩
  rw [result_parseResponse, hdoc]
  simp only [bind, Except.bind, reportedError_of_null herror]
  exact hcause

/-- **Faults of decoding.** Whatever the answer is, decoding it fails with decoding errors alone, and
an answer to a create request besides with errors that the server reported, exactly if no wait of the
document escapes. Where one does, the fault is one from below. -/
theorem decoding_isA_iff (d : Dialect) (source : Value) :
    ((∀ e, (Configuration.decodeResponse d source).result = .error e → e.IsA (.report .decode)) ↔
      ¬ ∃ doc, Document.load d source = .ok doc ∧ Configuration.WaitEscapes d doc) ∧
    ((∃ doc, Document.load d source = .ok doc ∧ Configuration.WaitEscapes d doc) →
      ∃ cause, (Configuration.decodeResponse d source).result = .error (.duration cause)) ∧
    ((∀ e, (parseResponse d source).result = .error e →
        e.IsA (.report .decode) ∨ e.IsA (.api .other)) ↔
      ¬ ∃ doc, Document.load d source = .ok doc ∧ doc.get Document.errorTag = .null ∧
        Configuration.WaitEscapes d doc) ∧
    ((∃ doc, Document.load d source = .ok doc ∧ doc.get Document.errorTag = .null ∧
        Configuration.WaitEscapes d doc) →
      ∃ cause, (parseResponse d source).result = .error (.duration cause)) := by
  have hforeign (cause : DurationError) (k : ErrorClass) : ¬ (Fault.duration cause).IsA k :=
    Fault.not_isA rfl k
  refine ⟨⟨?_, ?_⟩, ?_, ⟨?_, ?_⟩, ?_⟩
  · rintro hall ⟨doc, hdoc, hwait⟩
    obtain ⟨cause, hcause⟩ := Configuration.decodeResponse_of_waitEscapes hdoc hwait
    exact hforeign cause _ (hall _ hcause)
  · intro hno e he
    exact (Configuration.decodeResponse_eq_error he).resolve_right hno
  · rintro ⟨doc, hdoc, hwait⟩
    exact Configuration.decodeResponse_of_waitEscapes hdoc hwait
  · rintro hall ⟨doc, hdoc, herror, hwait⟩
    obtain ⟨cause, hcause⟩ := parseResponse_of_waitEscapes hdoc herror hwait
    exact (hall _ hcause).elim (hforeign cause _) (hforeign cause _)
  · intro hno e he
    exact (parseResponse_eq_error he).resolve_right hno
  · rintro ⟨doc, hdoc, herror, hwait⟩
    exact parseResponse_of_waitEscapes hdoc herror hwait

/-- An answer that says no more than that the wait is a thousand million days. -/
def endlessWait : Text := "\x7b\"config\":\x7b\"ack_wait\":86400000000000000000999\x7d\x7d"

/-- Both ways of decoding it in the lenient dialect fail with a fault from below. -/
theorem decoding_endlessWait :
    (Configuration.decodeResponse .lenient (.text endlessWait)).result =
        .error (.duration (.days 1000000000)) ∧
      (parseResponse .lenient (.text endlessWait)).result = .error (.duration (.days 1000000000)) ∧
      ∀ c, ¬ (Fault.duration (.days 1000000000)).IsA c := by
  have hdays {r : Except Fault Configuration}
      (h : (match r with
        | .error (.duration (.days n)) => n == 1000000000
        | _ => false) = true) : r = .error (.duration (.days 1000000000)) := by
    split at h
    · rw [eq_of_beq h]
    · simp at h
  exact ⟨hdays (by decide +kernel), hdays (by decide +kernel), Fault.not_isA rfl⟩

end CreateRequest

end StreamConsumer
