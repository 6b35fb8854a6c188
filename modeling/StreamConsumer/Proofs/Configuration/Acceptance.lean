import StreamConsumer.Proofs.Configuration.EncodingFaults
import StreamConsumer.Proofs.Document.Acceptance

/-!
# Which requests are encoded

A well-typed configuration is encoded exactly if the wire can carry what its fields hold and, in the
strict dialect, no text has a surrogate. **Main statement** (`encodeRequest_accepts`): its integers and
the nanoseconds of its wait need 64 bits, its start needs a clock in UTC; the first field that holds an
integer beyond the bits is reported with that integer, and where texts alone are at fault the error is
about the request as a whole.

The fields are checked before anything is written and alike for both dialects, so the dialects refuse
the same requests except for those whose only fault is a surrogate (`isRefused_agree_iff`).
-/

namespace StreamConsumer

namespace Configuration

variable {c : Configuration} {d : Dialect}

/-! ### What a configuration can send -/

/-- Only the start holds a date. -/
theorem eq_startTime_of_dateTime (hc : c.WellTyped) {f : Field} {u : DateTime}
    (hu : c.get f = .dateTime u) : f = .startTime := by
  have hadmits := hc f
  rw [hu] at hadmits
  cases f <;> first | rfl | cases hadmits

/-- The members of a well-typed configuration are there exactly if every field can be sent. -/
theorem exists_toMembers_iff (hc : c.WellTyped) :
    (∃ ms, c.toMembers = .ok ms) ↔ ∀ f, (c.get f).isSendable = true := by
  constructor
  · rintro ⟨ms, hms⟩ f
    obtain ⟨hall, -⟩ := membersOf_eq_ok_iff.mp hms
    exact (FieldKind.exists_encode_iff (hc f)).mp (hall f (Field.mem_wireOrder f))
  · intro h
    exact ⟨_, membersOf_eq_ok_iff.mpr
      ⟨fun f _ => (FieldKind.exists_encode_iff (hc f)).mpr (h f), rfl⟩⟩

/-- A request is plain exactly as far as its stream and the texts of its configuration are. -/
theorem plain_request_iff {P : Text → Prop} (hP : ∀ t : Text, t.IsScalar → P t) (hc : c.WellTyped)
    {ms : Members} (hms : c.toMembers = .ok ms) (s : Text) :
    (request (.text s) ms).Plain P 2 ↔ P s ∧ ∀ f t, c.get f = .text t → P t := by
  obtain ⟨hall, rfl⟩ := membersOf_eq_ok_iff.mp hms
  have hkey {t : Text} (ht : t.IsScalar) : ∃ u, Value.text t = .text u ∧ P u := ⟨t, rfl, hP t ht⟩
  have hstream : Document.streamTag.IsScalar := by decide
  have hconfig : Document.configurationTag.IsScalar := by decide
  -- A field that sends something is plain as far as it is a text, and one that sends nothing is none.
  have hfields : (Value.dict (membersFrom c.sent Field.wireOrder)).Plain P 1 ↔
      ∀ f t, c.get f = .text t → P t := by
    rw [Value.plain_dict_iff]
    constructor
    · intro h f t ht
      obtain ⟨o, ho⟩ := hall f (Field.mem_wireOrder f)
      rcases o with _ | w
      · rw [FieldKind.eq_null_of_encode_none ho] at ht
        cases ht
      · have hmem := mem_membersFrom.mpr ⟨f, Field.mem_wireOrder f, w, sent_eq ho, rfl⟩
        exact (FieldKind.plain_iff_of_encode hP (hc f) ho 0).mp (h _ hmem).2 t ht
    · intro h m hm
      obtain ⟨f, hf, w, hw, rfl⟩ := mem_membersFrom.mp hm
      obtain ⟨o, ho⟩ := hall f hf
      obtain rfl : o = some w := (sent_eq ho).symm.trans hw
      exact ⟨hkey (isScalar_tag f), (FieldKind.plain_iff_of_encode hP (hc f) ho 0).mpr (h f)⟩
  rw [request, Value.plain_dict_iff, List.forall_mem_cons, List.forall_mem_singleton,
    Value.plain_text_iff, hfields]
  simp only [hkey hstream, hkey hconfig, true_and]

/-- A request is written exactly if the dialect admits its texts; otherwise it has a surrogate. -/
theorem write_request_acceptedIff (d : Dialect) (hc : c.WellTyped) {ms : Members}
    (hms : c.toMembers = .ok ms) (s : Text) :
    Json.AcceptedIff (Json.write d .compact (request (.text s) ms))
      (d = .strict → s.IsScalar ∧ c.IsScalar) := by
  have hplain := (plain_request_iff (P := fun _ => True) (fun _ _ => trivial) hc hms s).mpr
    ⟨trivial, fun _ _ _ => trivial⟩
  refine (Json.writeAt_acceptedIff d rfl hplain 0 (by omega)).congr ?_
  rw [plain_request_iff (P := d.AdmitsText) (fun t ht _ => ht) hc hms s]
  constructor
  · rintro ⟨hs, hall⟩ hd
    exact ⟨hs hd, fun f t ht => hall f t ht hd⟩
  · intro h
    exact ⟨fun hd => (h hd).1, fun f t ht hd => (h hd).2 f t ht⟩

/-- A configuration whose fields can all be sent is encoded exactly if the dialect admits the texts. -/
theorem exists_encodeRequest_of_toMembers (hc : c.WellTyped) {ms : Members}
    (hms : c.toMembers = .ok ms) (s : Text) :
    (∃ t, c.encodeRequest d (.text s) = .ok t) ↔ (d = .strict → s.IsScalar ∧ c.IsScalar) := by
  rw [encodeRequest_of_toMembers hms, ← (write_request_acceptedIff d hc hms s).exists_ok_iff]
  simp only [Except.mapError_eq_ok_iff]

/-- A request whose fields can all be sent fails with an error about a surrogate alone. -/
theorem encodeRequest_eq_error_of_toMembers (hc : c.WellTyped) {ms : Members}
    (hms : c.toMembers = .ok ms) {s : Text} {e : Fault}
    (h : c.encodeRequest d (.text s) = .error e) :
    e = .report .encode (.whole WriteError.surrogate.message) := by
  rw [encodeRequest_of_toMembers hms] at h
  obtain ⟨cause, hcause, rfl⟩ := Except.mapError_eq_error_iff.mp h
  rw [(write_request_acceptedIff d hc hms s).eq_surrogate cause hcause]
  rfl

/-- A well-typed configuration is encoded exactly if every field can be sent and the dialect admits the
texts. -/
theorem exists_encodeRequest_iff (hc : c.WellTyped) (s : Text) :
    (∃ t, c.encodeRequest d (.text s) = .ok t) ↔
      (∀ f, (c.get f).isSendable = true) ∧ (d = .strict → s.IsScalar ∧ c.IsScalar) := by
  rw [← exists_toMembers_iff hc]
  constructor
  · rintro ⟨t, ht⟩
    obtain ⟨ms, hms, -⟩ := Except.bind_eq_ok_iff.mp ht
    exact ⟨⟨ms, hms⟩, (exists_encodeRequest_of_toMembers hc hms s).mp ⟨t, ht⟩⟩
  · rintro ⟨⟨ms, hms⟩, htexts⟩
    exact (exists_encodeRequest_of_toMembers hc hms s).mpr htexts

/-- A wait of the least number of microseconds whose nanoseconds need more than 64 bits, a limit far
beyond them and a durable name that is a lone surrogate. -/
def longWait : Configuration where
  durable := .text [0xD800]
  ackWait := .duration ⟨18446744073709552, by decide, by decide⟩
  maxDeliver := .int 1180591620717411303424

/-- Each of its fields holds a value that its kind admits. -/
theorem wellTyped_longWait : longWait.WellTyped := by
  intro f
  cases f <;> rfl

/-- Encoding a request ends with an encoding error. -/
def IsRefused (c : Configuration) (d : Dialect) (s : Text) : Prop :=
  ∃ e, c.encodeRequest d (.text s) = .error e ∧ e.IsA (.report .encode)

/-- Every field can be sent, and yet the stream or a text of the configuration has a surrogate. -/
def OnlySurrogates (c : Configuration) (s : Text) : Prop :=
  (∀ f, (c.get f).isSendable = true) ∧ ¬ (s.IsScalar ∧ c.IsScalar)

/-- If surrogates are the only fault of a request, the strict dialect refuses it and the lenient one
does not. -/
theorem encodeRequest_of_onlySurrogates (hc : c.WellTyped) {s : Text} (h : c.OnlySurrogates s) :
    c.IsRefused .strict s ∧ ∃ t, c.encodeRequest .lenient (.text s) = .ok t := by
  obtain ⟨hsendable, hsurrogate⟩ := h
  obtain ⟨ms, hms⟩ := (exists_toMembers_iff hc).mpr hsendable
  constructor
  · rcases he : c.encodeRequest .strict (.text s) with e | t
    · refine ⟨e, he, ?_⟩
      rw [encodeRequest_eq_error_of_toMembers hc hms he]
      exact ⟨_, rfl, .inl rfl⟩
    · exact absurd ((exists_encodeRequest_of_toMembers hc hms s).mp ⟨t, he⟩ rfl) hsurrogate
  · exact (exists_encodeRequest_of_toMembers hc hms s).mpr fun hd => by cases hd

/-- A request with another fault, or with none, is refused in both dialects or in neither. -/
theorem isRefused_iff_of_not_onlySurrogates (hc : c.WellTyped) {s : Text}
    (h : ¬ c.OnlySurrogates s) : c.IsRefused .strict s ↔ c.IsRefused .lenient s := by
  rcases hmembers : c.toMembers with e | ms
  · -- The fault of the fields comes before the writer, so it is one and the same.
    unfold IsRefused
    rw [encodeRequest_of_toMembers_eq_error hmembers, encodeRequest_of_toMembers_eq_error hmembers]
  · have hsendable := (exists_toMembers_iff hc).mp ⟨ms, hmembers⟩
    have htexts : s.IsScalar ∧ c.IsScalar := by
      by_contra hsurrogate
      exact h ⟨hsendable, hsurrogate⟩
    have hnever (d : Dialect) : ¬ c.IsRefused d s := by
      rintro ⟨e, he, -⟩
      obtain ⟨t, ht⟩ := (exists_encodeRequest_of_toMembers (d := d) hc hmembers s).mpr fun _ => htexts
      rw [ht] at he
      cases he
    exact iff_of_false (hnever .strict) (hnever .lenient)

/-- **Refusals.** The two dialects agree about whether a request of a well-typed configuration is
refused, unless surrogates are its only fault: then the strict dialect alone refuses it. -/
theorem isRefused_agree_iff {c : Configuration} (hc : c.WellTyped) (s : Text) :
    ((c.IsRefused .strict s ↔ c.IsRefused .lenient s) ↔ ¬ c.OnlySurrogates s) ∧
      (c.OnlySurrogates s →
        c.IsRefused .strict s ∧ ∃ t, c.encodeRequest .lenient (.text s) = .ok t) := by
  refine ⟨⟨?_, isRefused_iff_of_not_onlySurrogates hc⟩, encodeRequest_of_onlySurrogates hc⟩
  intro hagree h
  obtain ⟨hstrict, t, ht⟩ := encodeRequest_of_onlySurrogates hc h
  obtain ⟨e, he, -⟩ := hagree.mp hstrict
  rw [ht] at he
  cases he

/-- Both refuse the wait that is too long, for all that a name is a surrogate besides. -/
theorem isRefused_agree_longWait :
    longWait.IsRefused .strict "ORDERS" ↔ longWait.IsRefused .lenient "ORDERS" :=
  (isRefused_agree_iff wellTyped_longWait "ORDERS").1.mpr fun h => absurd (h.1 .ackWait) (by decide)

/-- A request of the defaults for a stream whose name is a lone surrogate: the strict dialect refuses
it, the lenient one does not. -/
theorem isRefused_loneSurrogate : standard.WellTyped ∧ standard.IsRefused .strict [0xD800] ∧
    ¬ standard.IsRefused .lenient [0xD800] := by
  have honly : standard.OnlySurrogates [0xD800] := by
    refine ⟨fun f => ?_, fun h => absurd (h.1 0xD800 (by decide)) (by decide)⟩
    cases f <;> decide
  obtain ⟨hstrict, t, ht⟩ := encodeRequest_of_onlySurrogates wellTyped_standard honly
  refine ⟨wellTyped_standard, hstrict, ?_⟩
  rintro ⟨e, he, -⟩
  rw [ht] at he
  cases he

end Configuration

end StreamConsumer
