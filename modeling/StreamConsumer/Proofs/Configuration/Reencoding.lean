import StreamConsumer.Proofs.Calendar.Spelling
import StreamConsumer.Proofs.Configuration.Resending
import StreamConsumer.Proofs.Configuration.RoundTrip
import StreamConsumer.Proofs.Document.Durations

/-!
# Configurations of a server, encoded again

The members of a configuration that a server sent are read, and what was read is encoded. Field by field
this is `FieldKind.Resent`: a text, a word or an integer comes back as it was, a wait loses what is below
a microsecond, and a start is told in UTC and cut to microseconds. What the server did not give stands
there with its default, `Field.wireDefault`, and what no field knows is gone (`Restates`).

**Main statement** (`restates_of_toMembers`): this is all that changes, and to read and encode once more
changes nothing at all.
-/

namespace StreamConsumer

/-- What stands on the wire for a field that is not given; the optional ones are left out. -/
def Field.wireDefault : Field → Option Value
  | durable => none
  | deliverSubject => none
  | deliverPolicy => some (.text "all")
  | startSequence => some (.int 0)
  | startTime => none
  | ackPolicy => some (.text "explicit")
  | ackWait => some (.int 30000000000)
  | maxDeliver => some (.int (-1))
  | filterSubject => none
  | replayPolicy => some (.text "instant")
  | sampleFrequency => none
  | rateLimit => some (.int 0)
  | maxAckPending => some (.int 0)

/-- It is what is sent for the default. -/
theorem Field.encode_default (f : Field) : f.kind.encode f.tag f.default = .ok f.wireDefault := by
  cases f <;> rfl

namespace FieldKind

/-- What a value that the wire carries is sent as after it was read. -/
inductive Resent : FieldKind → Value → Value → Prop where
  /-- Texts, integers and words are sent as they were. -/
  | same {k : FieldKind} (v : Value) (hduration : k ≠ .duration) (hdate : k ≠ .date) : Resent k v v
  /-- Of a duration whole microseconds are sent, in nanoseconds. -/
  | duration {n m : Int} (h : IsGreatest {i | 1000 ∣ i ∧ i ≤ n} m) :
    Resent .duration (.int n) (.int m)
  /-- A date is sent as the same instant in UTC, cut to microseconds. -/
  | date {t s : Text} {q : ℚ} (h : Timestamp.Denotes t q)
    (hcut : Timestamp.Denotes (s ++ "Z") (⌊q * 1000000⌋ / 1000000)) :
    Resent .date (.text t) (.text (s ++ "Z"))

variable {tag : Text} {v w : Value} {d : Dialect}

/-- Nothing is no value of any kind. -/
theorem decode_null_ne_ok (k : FieldKind) : k.decode tag .null ≠ .ok w := by
  intro h
  cases k <;> cases h

/-- **One field.** What is sent for what a value of the wire was read as. -/
theorem resent_of_decode {k : FieldKind} (hv : v.IsJson d) (hdecode : k.decode tag v = .ok w)
    {o : Option Value} (hencode : k.encode tag w = .ok o) : ∃ x, o = some x ∧ k.Resent v x := by
  cases k with
  | text =>
    obtain ⟨⟨t, ht⟩, rfl⟩ := decode_text_eq_ok hdecode
    obtain rfl := eq_text_of_isJson hv ht
    exact ⟨_, (Except.ok.inj hencode).symm, .same _ (by decide) (by decide)⟩
  | integer =>
    obtain ⟨n, rfl, rfl⟩ := decode_integer_eq_ok hdecode
    obtain ⟨m, hm, rfl⟩ := Except.map_eq_ok_iff.mp hencode
    obtain ⟨hnm, -⟩ := encodeInteger_eq_ok hm
    rw [← hnm]
    exact ⟨_, rfl, .same _ (by decide) (by decide)⟩
  | duration =>
    obtain ⟨n, u, rfl, rfl, hmicros⟩ := decode_duration_eq_ok hdecode
    obtain ⟨rfl, -⟩ := encode_duration_eq_ok hencode
    exact ⟨_, rfl, .duration (Duration.isGreatest_nanoseconds hmicros)⟩
  | date =>
    obtain ⟨t, u, ht, hparse, rfl⟩ := decode_date_eq_ok hdecode
    obtain rfl := eq_text_of_isJson hv ht
    obtain ⟨t', ht', rfl⟩ := Except.map_eq_ok_iff.mp hencode
    obtain ⟨u', hu', hrender⟩ := timestamp_eq_ok ht'
    obtain rfl := Value.dateTime.inj hu'
    obtain ⟨q, hq, hinstant, -⟩ := Timestamp.denotes_of_parse hparse
    have hcut := Timestamp.denotes_of_render hrender
    rw [hinstant] at hcut
    obtain ⟨z, -, rfl⟩ := Timestamp.render_eq_some hrender
    exact ⟨_, rfl, .date hq hcut⟩
  | policy vocabulary =>
    obtain ⟨t, p, ht, hp, rfl⟩ := decode_policy_eq_ok hdecode
    obtain rfl := eq_text_of_isJson hv ht
    obtain rfl : some (Value.text p.wire) = o := Except.ok.inj hencode
    rw [(Vocabulary.ofWire?_eq_some hp).2]
    exact ⟨_, rfl, .same _ (by simp) (by simp)⟩

end FieldKind

namespace Configuration

variable {d : Dialect} {ms out : Members} {c : Configuration}

/-- A start that was read has an offset. -/
theorem offset_isSome_of_readFields (h : readFields ms standard Field.all = .ok c) {u : DateTime}
    (hu : c.startTime = .dateTime u) : u.offset.isSome = true := by
  have hu : c.get .startTime = .dateTime u := hu
  obtain ⟨-, hdefault⟩ | hdecode := get_of_readFields h .startTime
  · rw [hu] at hdefault
    cases hdefault
  · rw [hu] at hdecode
    obtain ⟨t, u', -, hparse, hu'⟩ := FieldKind.decode_date_eq_ok hdecode
    obtain rfl := Value.dateTime.inj hu'
    obtain ⟨q, -, -, hoffset⟩ := Timestamp.denotes_of_parse hparse
    exact hoffset

/-- The second members say of every field what the first ones say, as it is sent, and nothing else. -/
structure Restates (ms out : Members) : Prop where
  /-- No key is there twice. -/
  nodup : (out.map Prod.fst).Nodup
  /-- All keys are tags. -/
  tags : ∀ k ∈ out.map Prod.fst, ∃ f : Field, k = .text f.tag
  /-- A field that was not given has its default, or is left out. -/
  missing : ∀ f : Field, ms.get f.tag = .null → out.get? (.text f.tag) = f.wireDefault
  /-- A field that was given is there. -/
  given : ∀ f : Field, ms.get f.tag ≠ .null →
    ∃ w, out.get? (.text f.tag) = some w ∧ f.kind.Resent (ms.get f.tag) w

/-- **Encoding again.** If the members that a server sent are read as a configuration and this can be
encoded, then the members it is encoded to restate those of the server. They are read in turn without a
record, as an equal configuration, and this is encoded to the very same members. -/
theorem restates_of_toMembers (hms : (Value.dict ms).IsJson d)
    (hread : (ofMembers ms).result = .ok c) (hsend : c.toMembers = .ok out) :
    Restates ms out ∧
      ∃ c', ofMembers out = ⟨[], .ok c'⟩ ∧ c'.equal c = true ∧ c'.toMembers = .ok out := by
  have hread : readFields ms standard Field.all = .ok c := hread
  have hc := wellTyped_of_readFields hms hread
  have hfield := encode_eq_get?_of_toMembers hsend
  have hout : out = membersFrom c.sent Field.wireOrder := (membersOf_eq_ok_iff.mp hsend).2
  have hdecoded (f : Field) (hf : ms.get f.tag ≠ .null) :
      f.kind.decode f.tag (ms.get f.tag) = .ok (c.get f) :=
    (get_of_readFields hread f).resolve_left fun h => hf h.1
  refine ⟨⟨?_, ?_, ?_, ?_⟩, c.inUtc, ?_, ?_, ?_⟩
  · rw [hout]
    exact nodup_keys_membersFrom nodup_wireOrder
  · intro k hk
    obtain ⟨m, hm, rfl⟩ := List.mem_map.mp hk
    rw [hout] at hm
    obtain ⟨f, -, v, -, rfl⟩ := mem_membersFrom.mp hm
    exact ⟨f, rfl⟩
  · intro f hf
    obtain ⟨-, hdefault⟩ | hdecode := get_of_readFields hread f
    · have hfield := hfield f
      rw [hdefault, f.encode_default] at hfield
      exact (Except.ok.inj hfield).symm
    · rw [hf] at hdecode
      exact absurd hdecode (FieldKind.decode_null_ne_ok _)
  · intro f hf
    exact FieldKind.resent_of_decode (hms.get f.tag) (hdecoded f hf) (hfield f)
  · exact ofMembers_toMembers hc hsend
  · apply (equal_iff_of_toldInUtc hc (toldInUtc_inUtc hsend)).mpr
    intro u hu
    exact offset_isSome_of_readFields hread hu
  · rw [toMembers_inUtc hc]
    exact hsend

/-- A configuration as a server may send it: a wait below zero that is no whole microsecond, a start on a
clock one hour east with more digits than a clock shows, a field that is null and one that none knows. -/
def unevenConfiguration : Text :=
  "\x7b\"durable_name\":\"d\",\"ack_wait\":-1500,\"opt_start_time\":\"2021-03-01T00:30:00.1234567+01:00\"," ++
    "\"filter_subject\":null,\"replay_policy\":\"original\",\"num_replicas\":3\x7d"

/-- It is encoded again with the wait and the start as they can be kept. -/
theorem restates_of_toMembers_uneven : ∃ ms c out,
    Document.load .strict (.text unevenConfiguration) = .ok ms ∧
    (ofMembers ms).result = .ok c ∧ c.toMembers = .ok out ∧ Restates ms out ∧
      ∃ c', ofMembers out = ⟨[], .ok c'⟩ ∧ c'.equal c = true := by
  have hok : (((Document.load .strict (.text unevenConfiguration)).toOption.bind fun ms =>
      (ofMembers ms).result.toOption).map fun c => c.toMembers.isOk) = some true := by
    decide +kernel
  obtain ⟨c, hc, hout⟩ := Option.map_eq_some_iff.mp hok
  obtain ⟨ms, hms, hc⟩ := Option.bind_eq_some_iff.mp hc
  obtain ⟨out, hout⟩ := Except.isOk_iff.mp hout
  have hload := Except.toOption_eq_some_iff.mp hms
  have hread := Except.toOption_eq_some_iff.mp hc
  obtain ⟨hrestates, c', hof, hequal, -⟩ :=
    restates_of_toMembers (Document.isJson_of_load hload) hread hout
  exact ⟨ms, c, out, hload, hread, hout, hrestates, c', hof, hequal⟩

end Configuration

end StreamConsumer
