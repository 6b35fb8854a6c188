import StreamConsumer.Proofs.Configuration.Decoding
import StreamConsumer.Proofs.Configuration.Encoding

/-!
# Configurations over the wire and back

A well-typed configuration without surrogates that is encoded in one dialect is decoded in either,
from the text and from its UTF-8, without a record. What comes back holds what was sent in every
field; only the start is told in UTC (`ToldInUtc`), so that it equals what was sent unless the start
had no offset.

The text is a notation of the request (`isNotation_encodeRequest`), the request has the members of the
configuration under its tag, and each field finds its own member there (`read_membersFrom`).
-/

namespace StreamConsumer

/-- A clock in UTC is told in UTC as it is. -/
theorem DateTime.toUtc_of_toUtc {d u : DateTime} (h : d.toUtc = some u) : u.toUtc = some u := by
  rw [toUtc, (instant_of_ofInstant? h).1]
  exact h

namespace Value

/-- A value that is no date is told in UTC as it is. -/
theorem inUtc_eq_self {v : Value} (h : ∀ d, v ≠ .dateTime d) : v.inUtc = v := by
  cases v with
  | dateTime d => exact absurd rfl (h d)
  | _ => rfl

/-- What a kind admits is equal to itself. -/
theorem equal_self_of_admits {k : FieldKind} {v : Value} (h : k.admits v = true) :
    v.equal v = true := by
  cases k with
  | text =>
    obtain rfl | ⟨t, rfl⟩ := FieldKind.admits_text h
    · rfl
    · exact (equal_text_text t t).trans (decide_eq_true rfl)
  | integer =>
    obtain ⟨n, rfl⟩ := FieldKind.admits_integer h
    exact beq_self_eq_true n
  | duration =>
    obtain ⟨d, rfl⟩ := FieldKind.admits_duration h
    exact beq_self_eq_true d.micros
  | date =>
    obtain rfl | ⟨d, rfl⟩ := FieldKind.admits_date h
    · rfl
    · simp [equal]
  | policy vocabulary =>
    obtain ⟨p, rfl, -⟩ := FieldKind.admits_policy h
    exact beq_self_eq_true (some p.wire)

end Value

namespace FieldKind

variable {tag : Text}

/-- What a kind admits is sent as it is when it is told in UTC. -/
theorem encode_inUtc {k : FieldKind} {v : Value} (hv : k.admits v = true) :
    k.encode tag v.inUtc = k.encode tag v := by
  cases v with
  | dateTime u =>
    rcases hu : u.toUtc with _ | z
    · rw [Value.inUtc, hu]
      rfl
    · have hz := DateTime.toUtc_of_toUtc hu
      cases k with
      | date =>
        simp only [Value.inUtc, hu, encode, timestamp, Timestamp.render, hz, Value.isNull,
          Option.map_some, Option.getD_some]
      | _ => cases hv
  | _ => rfl

end FieldKind

/-- A field that admits no value has none where none is given. -/
theorem Field.default_of_admits_null {f : Field} (h : f.kind.admits .null = true) :
    f.default = .null := by
  cases f <;> first | rfl | exact absurd h (by decide)

/-- A notation of an object is a document with its members. -/
theorem Document.load_of_isNotation {t : Text} {ms : Members} (h : Json.IsNotation t 0 (.dict ms))
    (d : Dialect) :
    load d (.text t) = .ok ms ∧ load d (.bytes .fixed (Utf8.encode t)) = .ok ms := by
  rw [load, load, h.readSource_text d, h.readSource_bytes d]
  exact ⟨rfl, rfl⟩

namespace Configuration

/-- The second configuration is the first one with its start told in UTC. -/
structure ToldInUtc (c c' : Configuration) : Prop where
  /-- No other field changes. -/
  others : ∀ f, f ≠ .startTime → c'.get f = c.get f
  /-- Where there is no start, there is none. -/
  missing : c.startTime = .null → c'.startTime = .null
  /-- A start is the same instant on a clock in UTC. -/
  instant : ∀ d, c.startTime = .dateTime d →
    ∃ u, c'.startTime = .dateTime u ∧ u.instant = d.instant ∧ u.offset = some .zero

/-- A configuration with its start told in UTC. -/
def inUtc (c : Configuration) : Configuration := c.set .startTime c.startTime.inUtc

variable {c : Configuration}

/-- Every field is told in UTC; for all but the start that changes nothing. -/
theorem get_inUtc (hc : c.WellTyped) (f : Field) : c.inUtc.get f = (c.get f).inUtc := by
  rw [inUtc, get_set]
  split
  · rename_i hf
    rw [hf]
    rfl
  · rename_i hf
    symm
    apply Value.inUtc_eq_self
    intro d hd
    have hadmits := hc f
    rw [hd] at hadmits
    cases f <;> first | exact absurd rfl hf | cases hadmits

/-- A configuration is sent as it is when it is told in UTC. -/
theorem toMembers_inUtc (hc : c.WellTyped) : c.inUtc.toMembers = c.toMembers :=
  membersOf_congr fun f _ => by rw [get_inUtc hc, FieldKind.encode_inUtc (hc f)]

/-! ### What is sent is taken -/

/-- Each field takes from the members that were sent what it sent, told in UTC. -/
theorem read_membersFrom (hc : c.WellTyped) {f : Field} {o : Option Value}
    (h : f.kind.encode f.tag (c.get f) = .ok o) :
    Document.read (membersFrom c.sent Field.wireOrder) f.tag f.kind =
      .ok (o.map fun _ => (c.get f).inUtc) := by
  rw [Document.read, get_membersFrom, if_pos (Field.mem_wireOrder f), sent_eq h]
  rcases o with _ | w
  · rfl
  · obtain ⟨hnull, hdecode⟩ := FieldKind.decode_of_encode (hc f) h
    simp only [Option.getD_some, hnull, Bool.false_eq_true, if_false, hdecode]
    rfl

/-- The members of a configuration describe it, with its start told in UTC. -/
theorem ofMembers_toMembers (hc : c.WellTyped) {ms : Members} (h : c.toMembers = .ok ms) :
    ofMembers ms = ⟨[], .ok c.inUtc⟩ := by
  obtain ⟨hall, rfl⟩ := membersOf_eq_ok_iff.mp h
  have hread : readFields (membersFrom c.sent Field.wireOrder) standard Field.all =
      .ok c.inUtc := by
    refine readFields_eq_ok_iff.mpr ⟨?_, ?_⟩
    · intro f _
      obtain ⟨o, ho⟩ := hall f (Field.mem_wireOrder f)
      exact ⟨_, read_membersFrom hc ho⟩
    · intro f
      obtain ⟨o, ho⟩ := hall f (Field.mem_wireOrder f)
      rw [if_pos (Field.mem_all f), taken_eq (read_membersFrom hc ho), get_inUtc hc]
      rcases o with _ | w
      · have hnull := FieldKind.eq_null_of_encode_none ho
        have hadmits := hc f
        rw [hnull] at hadmits ⊢
        exact ((get_standard f).trans (Field.default_of_admits_null hadmits)).symm
      · rfl
  simp only [ofMembers, unknownKeys_membersFrom, hread]
  rfl

/-- What is sent has a notation in both dialects. -/
theorem portable_toMembers (hc : c.WellTyped) (hs : c.IsScalar) {ms : Members}
    (h : c.toMembers = .ok ms) (n : Nat) : (Value.dict ms).Portable (n + 1) := by
  obtain ⟨hall, rfl⟩ := membersOf_eq_ok_iff.mp h
  refine .dict ?_ (nodup_keys_membersFrom nodup_wireOrder) ?_
  · intro m hm
    obtain ⟨f, -, v, -, rfl⟩ := mem_membersFrom.mp hm
    exact ⟨f.tag, rfl, isScalar_tag f⟩
  · intro m hm
    obtain ⟨f, hf, v, hv, rfl⟩ := mem_membersFrom.mp hm
    obtain ⟨o, ho⟩ := hall f hf
    rw [sent_eq ho] at hv
    subst hv
    exact FieldKind.portable_of_encode (hc f) (hs f) ho n

/-! ### Requests -/

/-- A request is portable if its members are, one level deeper. -/
theorem portable_request {s : Text} (hs : s.IsScalar) {ms : Members} {n : Nat}
    (h : (Value.dict ms).Portable n) : (request (.text s) ms).Portable (n + 1) := by
  have hne : Document.streamTag ≠ Document.configurationTag := by decide
  refine .dict ?_ (by simp [hne]) ?_
  · intro m hm
    simp only [List.mem_cons, List.not_mem_nil, or_false] at hm
    obtain rfl | rfl := hm
    · exact ⟨Document.streamTag, rfl, by decide⟩
    · exact ⟨Document.configurationTag, rfl, by decide⟩
  · intro m hm
    simp only [List.mem_cons, List.not_mem_nil, or_false] at hm
    obtain rfl | rfl := hm
    · exact .text n hs
    · exact h

/-- **Encoding.** A well-typed configuration without surrogates whose fields can all be sent is encoded
in either dialect, and the text is a notation of the request. -/
theorem exists_encodeRequest (d : Dialect) (hc : c.WellTyped) (hs : c.IsScalar) {s : Text}
    (hstream : s.IsScalar) {ms : Members} (hms : c.toMembers = .ok ms) :
    ∃ t, c.encodeRequest d (.text s) = .ok t ∧ Json.IsNotation t 0 (request (.text s) ms) := by
  obtain ⟨t, ht, hnot⟩ := Json.exists_isNotation d (s := .compact) rfl
    (portable_request hstream (portable_toMembers hc hs hms 0)) 0 (by omega)
  refine ⟨t, ?_, hnot⟩
  rw [encodeRequest_of_toMembers hms]
  exact congrArg (Except.mapError refusal) ht

/-- The text of a request is a notation of it. -/
theorem isNotation_encodeRequest {d : Dialect} (hc : c.WellTyped) (hs : c.IsScalar) {s t : Text}
    (hstream : s.IsScalar) (h : c.encodeRequest d (.text s) = .ok t) :
    ∃ ms, c.toMembers = .ok ms ∧ Json.IsNotation t 0 (request (.text s) ms) := by
  obtain ⟨ms, hms, -⟩ := Except.bind_eq_ok_iff.mp h
  obtain ⟨u, hu, hnot⟩ := exists_encodeRequest d hc hs hstream hms
  rw [hu] at h
  obtain rfl := Except.ok.inj h
  exact ⟨ms, hms, hnot⟩

/-- The stream is found in the request. -/
theorem get_request_stream (stream : Value) (ms : Members) :
    Members.get [(.text Document.streamTag, stream), (.text Document.configurationTag, .dict ms)]
      Document.streamTag = stream := by
  rw [Members.get_cons, if_pos rfl]

/-- The members of the configuration are found in the request. -/
theorem get_request_configuration (stream : Value) (ms : Members) :
    Members.get [(.text Document.streamTag, stream), (.text Document.configurationTag, .dict ms)]
      Document.configurationTag = .dict ms := by
  rw [Members.get_cons, if_neg (by decide), Members.get_cons, if_pos rfl]

/-- A request reports no error. -/
theorem get_request_error (stream : Value) (ms : Members) :
    Members.get [(.text Document.streamTag, stream), (.text Document.configurationTag, .dict ms)]
      Document.errorTag = .null := by
  rw [Members.get_cons, if_neg (by decide), Members.get_cons, if_neg (by decide), Members.get_nil]

/-! ### What comes back -/

/-- A start that was sent has a clock in UTC. -/
theorem exists_toUtc_of_toMembers {ms : Members} (h : c.toMembers = .ok ms) {d : DateTime}
    (hd : c.startTime = .dateTime d) : ∃ u, d.toUtc = some u := by
  obtain ⟨hall, -⟩ := membersOf_eq_ok_iff.mp h
  obtain ⟨o, ho⟩ := hall .startTime (Field.mem_wireOrder _)
  rw [show c.get .startTime = .dateTime d from hd] at ho
  obtain ⟨t, ht, -⟩ := Except.map_eq_ok_iff.mp ho
  obtain ⟨d', hd', hrender⟩ := FieldKind.timestamp_eq_ok ht
  obtain rfl := Value.dateTime.inj hd'
  obtain ⟨u, hu, -⟩ := Timestamp.render_eq_some hrender
  exact ⟨u, hu⟩

/-- A configuration that was sent can be told in UTC. -/
theorem toldInUtc_inUtc {ms : Members} (h : c.toMembers = .ok ms) : ToldInUtc c c.inUtc where
  others f hf := by rw [inUtc, get_set, if_neg hf]
  missing hnull := by
    rw [inUtc, hnull]
    rfl
  instant d hd := by
    obtain ⟨u, hu⟩ := exists_toUtc_of_toMembers h hd
    obtain ⟨hinstant, hoffset⟩ := DateTime.instant_of_ofInstant? hu
    refine ⟨u, ?_, hinstant, hoffset⟩
    rw [inUtc, hd, Value.inUtc, hu]
    rfl

/-- What is told in UTC is equal to what it was unless a start without offset got one. -/
theorem equal_iff_of_toldInUtc (hc : c.WellTyped) {c' : Configuration} (h : ToldInUtc c c') :
    c'.equal c = true ↔ ∀ d, c.startTime = .dateTime d → d.offset.isSome = true := by
  have hstart : (c'.startTime.equal c.startTime) = true ↔
      ∀ d, c.startTime = .dateTime d → d.offset.isSome = true := by
    obtain hnull | ⟨d, hd⟩ := FieldKind.admits_date (hc .startTime)
    · have hnull : c.startTime = .null := hnull
      rw [h.missing hnull, hnull]
      exact iff_of_true rfl fun d hd => by cases hd
    · have hd : c.startTime = .dateTime d := hd
      obtain ⟨u, hu, hinstant, hoffset⟩ := h.instant d hd
      rw [hu, hd, Value.equal, hinstant, hoffset]
      constructor
      · intro hequal d' hd'
        obtain rfl := Value.dateTime.inj hd'
        simpa using hequal
      · intro hsome
        simp [hsome d rfl]
  rw [← hstart, equal, List.all_eq_true]
  constructor
  · intro hall
    exact hall .startTime (Field.mem_all _)
  · intro hequal f _
    by_cases hf : f = .startTime
    · rw [hf]
      exact hequal
    · rw [h.others f hf]
      exact Value.equal_self_of_admits (hc f)

/-- **Round trip.** A well-typed configuration without surrogates that one dialect encodes is decoded
by either, from the text and from its UTF-8, to one and the same configuration and without a record.
This is what was sent with its start told in UTC, and equal to it unless the start had no offset. -/
theorem decodeResponse_encodeRequest (d₁ d₂ : Dialect) {c : Configuration} (hc : c.WellTyped)
    (hs : c.IsScalar) {s t : Text} (hstream : s.IsScalar)
    (h : c.encodeRequest d₁ (.text s) = .ok t) :
    t.IsScalar ∧ ∃ c', decodeResponse d₂ (.text t) = ⟨[], .ok c'⟩ ∧
      decodeResponse d₂ (.bytes .fixed (Utf8.encode t)) = ⟨[], .ok c'⟩ ∧ ToldInUtc c c' ∧
      (c'.equal c = true ↔ ∀ d, c.startTime = .dateTime d → d.offset.isSome = true) := by
  obtain ⟨ms, hms, hnot⟩ := isNotation_encodeRequest hc hs hstream h
  obtain ⟨htext, hbytes⟩ := Document.load_of_isNotation hnot d₂
  have hconfig := get_request_configuration (.text s) ms
  have hof := ofMembers_toMembers hc hms
  have htold := toldInUtc_inUtc hms
  refine ⟨fun k hk => (hnot.sendable k hk).1, c.inUtc, ?_, ?_, htold,
    equal_iff_of_toldInUtc hc htold⟩
  · rw [decodeResponse_eq_ofMembers htext hconfig, hof]
  · rw [decodeResponse_eq_ofMembers hbytes hconfig, hof]

/-- A configuration that has a quotation mark, a line feed and a code point beyond the first plane in
its texts, integers at both ends of their range and a start on a clock 90 minutes east. -/
def extreme : Configuration where
  durable := .text "say \"hi\"\n😀"
  startSequence := .int 18446744073709551615
  startTime := .dateTime ⟨⟨2021, 2, 28, by decide, by decide, by decide, by decide, by decide, by decide⟩,
    3600000001, some ⟨5400000000, by decide, by decide⟩⟩
  ackWait := .duration ⟨-1, by decide, by decide⟩
  maxDeliver := .int (-9223372036854775808)

/-- Each of its fields holds a value that its kind admits. -/
theorem wellTyped_extreme : extreme.WellTyped := by
  intro f
  cases f <;> rfl

/-- The one text among its fields has no surrogates. -/
theorem isScalar_extreme : extreme.IsScalar := by
  intro f t ht
  cases f <;> cases ht
  decide

/-- It comes back equal, since its start has an offset. -/
theorem decodeResponse_encodeRequest_extreme : ∃ t c',
    extreme.encodeRequest .lenient (.text "ORDERS") = .ok t ∧
      decodeResponse .strict (.text t) = ⟨[], .ok c'⟩ ∧ c'.equal extreme = true := by
  have hok : (extreme.encodeRequest .lenient (.text "ORDERS")).isOk = true := by decide +kernel
  obtain ⟨t, ht⟩ := Except.isOk_iff.mp hok
  obtain ⟨-, c', htext, -, -, hequal⟩ :=
    decodeResponse_encodeRequest .lenient .strict wellTyped_extreme isScalar_extreme (by decide) ht
  refine ⟨t, c', ht, htext, hequal.mpr ?_⟩
  intro d hd
  obtain rfl := Value.dateTime.inj hd
  rfl

end Configuration

end StreamConsumer
