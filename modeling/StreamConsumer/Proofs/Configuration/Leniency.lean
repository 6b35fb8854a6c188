import StreamConsumer.Proofs.Configuration.DecodingFaults
import StreamConsumer.Proofs.Document.Leniency

/-!
# One answer, two dialects and two sources

The lenient dialect decodes every answer that the strict one decodes, to the same configuration and with
the same records, and both decode the UTF-8 of a text to what they decode the text to. This holds for
both kinds of answers. **Main statement** (`decoding_follows`).

The documents of the two dialects may differ, but only in integers beyond 64 bits. No field takes one,
`readFields_of_narrowed`, and a record about keys does not show the values, `ofMembers_of_narrowed`.
-/

namespace StreamConsumer

namespace Configuration

variable {d : Dialect} {ms : Members} {fs : List Field} {c c' : Configuration} {source : Value}

/-- A configuration that is read from narrowed members is read from them as they were. -/
theorem readFields_of_narrowed (h : readFields (ms.mapValues Value.narrowed) c fs = .ok c') :
    readFields ms c fs = .ok c' := by
  induction fs generalizing c with
  | nil => exact h
  | cons f fs ih =>
    rw [readFields_cons] at h ⊢
    obtain ⟨o, ho, h⟩ := Except.bind_eq_ok_iff.mp h
    exact Except.bind_eq_ok_iff.mpr ⟨o, Document.read_of_narrowed ho, ih h⟩

/-- The records are the same, too, because they are about the keys. -/
theorem ofMembers_of_narrowed
    (h : readFields (ms.mapValues Value.narrowed) standard Field.all = .ok c) :
    ofMembers ms = ofMembers (ms.mapValues Value.narrowed) := by
  have hkeys : unknownKeys (ms.mapValues Value.narrowed) = unknownKeys ms := by
    rw [unknownKeys, Members.keys_mapValues, unknownKeys]
  simp only [ofMembers, hkeys, h, readFields_of_narrowed h]

/-- What the strict dialect decodes the lenient one decodes alike. -/
theorem decodeResponse_lenient (hsource : ∀ s, source ≠ .bytes .view s)
    (h : (decodeResponse .strict source).result = .ok c) :
    decodeResponse .lenient source = decodeResponse .strict source := by
  obtain ⟨doc, ms, hload, hms, hread⟩ := exists_members_of_decodeResponse h
  obtain ⟨doc', hload', rfl⟩ := Document.load_follows hsource doc hload
  obtain ⟨ms', hms', rfl⟩ := Members.get_eq_dict_of_narrowed hms
  rw [decodeResponse_eq_ofMembers hload hms, decodeResponse_eq_ofMembers hload' hms',
    ofMembers_of_narrowed hread]

/-- A text that is decoded and its UTF-8 bytes are decoded alike. -/
theorem decodeResponse_encode {t : Text} (ht : t.IsScalar)
    (h : (decodeResponse d (.text t)).result = .ok c) :
    decodeResponse d (.bytes .fixed (Utf8.encode t)) = decodeResponse d (.text t) := by
  obtain ⟨doc, ms, hload, hms, -⟩ := exists_members_of_decodeResponse h
  rw [decodeResponse_eq_ofMembers hload hms,
    decodeResponse_eq_ofMembers (Document.load_encode ht hload) hms]

end Configuration

namespace CreateRequest

variable {d : Dialect} {source : Value} {c : Configuration}

/-- What the strict dialect takes for an answer the lenient one takes for the same. -/
theorem parseResponse_lenient (hsource : ∀ s, source ≠ .bytes .view s)
    (h : (parseResponse .strict source).result = .ok c) :
    parseResponse .lenient source = parseResponse .strict source := by
  obtain ⟨doc, ms, hload, herror, hms, hread⟩ := exists_members_of_parseResponse h
  obtain ⟨doc', hload', rfl⟩ := Document.load_follows hsource doc hload
  obtain ⟨ms', hms', rfl⟩ := Members.get_eq_dict_of_narrowed hms
  have hnull := reportedError_eq_ok herror
  have hnull' := Members.get_eq_null_of_narrowed hnull
  rw [parseResponse_eq_ofMembers hload hnull hms, parseResponse_eq_ofMembers hload' hnull' hms',
    Configuration.ofMembers_of_narrowed hread]

/-- A text that is taken for an answer and its UTF-8 bytes are taken alike. -/
theorem parseResponse_encode {t : Text} (ht : t.IsScalar)
    (h : (parseResponse d (.text t)).result = .ok c) :
    parseResponse d (.bytes .fixed (Utf8.encode t)) = parseResponse d (.text t) := by
  obtain ⟨doc, ms, hload, herror, hms, -⟩ := exists_members_of_parseResponse h
  have hnull := reportedError_eq_ok herror
  rw [parseResponse_eq_ofMembers hload hnull hms,
    parseResponse_eq_ofMembers (Document.load_encode ht hload) hnull hms]

/-- **Leniency.** Whatever answer the strict dialect decodes, the lenient one decodes to the same
configuration, unless it is a window on bytes; and whatever text without surrogates a dialect decodes, it
decodes the UTF-8 of that text to the same configuration. -/
theorem decoding_follows :
    (∀ source : Value, (∀ s, source ≠ .bytes .view s) → ∀ records c,
      (Configuration.decodeResponse .strict source = ⟨records, .ok c⟩ →
        Configuration.decodeResponse .lenient source = ⟨records, .ok c⟩) ∧
      (parseResponse .strict source = ⟨records, .ok c⟩ →
        parseResponse .lenient source = ⟨records, .ok c⟩)) ∧
    ∀ (d : Dialect) (t : Text), t.IsScalar → ∀ records c,
      (Configuration.decodeResponse d (.text t) = ⟨records, .ok c⟩ →
        Configuration.decodeResponse d (.bytes .fixed (Utf8.encode t)) = ⟨records, .ok c⟩) ∧
      (parseResponse d (.text t) = ⟨records, .ok c⟩ →
        parseResponse d (.bytes .fixed (Utf8.encode t)) = ⟨records, .ok c⟩) := by
  constructor
  · intro source hsource records c
    constructor
    · intro h
      rw [Configuration.decodeResponse_lenient hsource (congrArg Outcome.result h), h]
    · intro h
      rw [parseResponse_lenient hsource (congrArg Outcome.result h), h]
  · intro d t ht records c
    constructor
    · intro h
      rw [Configuration.decodeResponse_encode ht (congrArg Outcome.result h), h]
    · intro h
      rw [parseResponse_encode ht (congrArg Outcome.result h), h]

/-- An answer with a name outside ASCII, a start on a clock east of UTC and, under a key that is no tag,
the least positive integer beyond 64 bits. -/
def wideAnswer : Text :=
  "\x7b\"config\":\x7b\"durable_name\":\"\u00e9\",\"opt_start_time\":\"2024-02-29T23:59:59.5+05:30\"," ++
    "\"sequence\":18446744073709551616\x7d\x7d"

/-- The lenient dialect decodes it like the strict one, as either kind of answer, as a text and as
bytes. -/
theorem decoding_follows_wide :
    (∃ records c, Configuration.decodeResponse .strict (.text wideAnswer) = ⟨records, .ok c⟩ ∧
      Configuration.decodeResponse .lenient (.text wideAnswer) = ⟨records, .ok c⟩ ∧
      Configuration.decodeResponse .lenient (.bytes .fixed (Utf8.encode wideAnswer)) =
        ⟨records, .ok c⟩) ∧
    ∃ records c, parseResponse .strict (.text wideAnswer) = ⟨records, .ok c⟩ ∧
      parseResponse .lenient (.text wideAnswer) = ⟨records, .ok c⟩ ∧
      parseResponse .lenient (.bytes .fixed (Utf8.encode wideAnswer)) = ⟨records, .ok c⟩ := by
  have hsource : ∀ s, Value.text wideAnswer ≠ .bytes .view s := by simp
  have hscalar : wideAnswer.IsScalar := by decide
  constructor
  · have hok : (Configuration.decodeResponse .strict (.text wideAnswer)).result.isOk = true := by
      decide +kernel
    obtain ⟨c, hc⟩ := Except.isOk_iff.mp hok
    obtain ⟨records, hstrict⟩ := Outcome.exists_eq_of_result hc
    have hlenient := (decoding_follows.1 _ hsource records c).1 hstrict
    exact ⟨records, c, hstrict, hlenient, (decoding_follows.2 _ _ hscalar records c).1 hlenient⟩
  · have hok : (parseResponse .strict (.text wideAnswer)).result.isOk = true := by decide +kernel
    obtain ⟨c, hc⟩ := Except.isOk_iff.mp hok
    obtain ⟨records, hstrict⟩ := Outcome.exists_eq_of_result hc
    have hlenient := (decoding_follows.1 _ hsource records c).2 hstrict
    exact ⟨records, c, hstrict, hlenient, (decoding_follows.2 _ _ hscalar records c).2 hlenient⟩

end CreateRequest

end StreamConsumer
