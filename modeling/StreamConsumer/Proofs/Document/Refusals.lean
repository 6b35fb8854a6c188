import StreamConsumer.Proofs.Document.Decoding

/-!
# What a field takes and what it refuses

`FieldKind.Takes` says what a kind of field takes from a document of the strict dialect; where nothing
stands, nothing is wrong, whatever the kind is (`Document.Suits`). All else is refused, and a refusal
names the field and the value, `FieldKind.decode_of_not_takes`. Its class tells a text outside a
vocabulary from everything else, `FieldKind.refusal`.
-/

namespace StreamConsumer

namespace FieldKind

/-- What a kind of field takes. -/
inductive Takes : FieldKind → Value → Prop where
  /-- A text. -/
  | text (t : Text) : Takes .text (.text t)
  /-- An integer. -/
  | integer (n : Int) : Takes .integer (.int n)
  /-- An integer, which counts nanoseconds. -/
  | duration (n : Int) : Takes .duration (.int n)
  /-- A text that is a timestamp. -/
  | date {t : Text} {u : DateTime} (h : Timestamp.parse t = .ok u) : Takes .date (.text t)
  /-- The word of a member of the vocabulary. -/
  | policy {vocabulary : Vocabulary} {p : Policy} (h : p.vocabulary = vocabulary) :
    Takes (.policy vocabulary) (.text p.wire)

/-- The class of the error with which a value is refused: a text is outside the vocabulary of a policy,
all else cannot be decoded. -/
def refusal : FieldKind → Value → ReportKind
  | .policy _, .text _ => .policy
  | _, _ => .decode

variable {k : FieldKind} {tag : Text} {v : Value}

/-! ### What is taken -/

/-- What a kind takes is decoded. -/
theorem exists_decode_of_takes (hv : v.IsJson .strict) (tag : Text) (h : k.Takes v) :
    ∃ w, k.decode tag v = .ok w := by
  cases h with
  | text t => exact ⟨.text t, rfl⟩
  | integer n => exact ⟨.int n, rfl⟩
  | duration n =>
    -- The integers of the strict dialect are few enough to be durations.
    have hword : FitsWord n := by
      cases hv with
      | int hadmits => exact of_decide_eq_true hadmits
    obtain ⟨hleast, hgreatest⟩ := Duration.spans_of_fitsWord hword
    exact ⟨_, decode_duration_int_eq_ok_iff.mpr ⟨⟨n / 1000, hleast, hgreatest⟩, rfl, rfl⟩⟩
  | @date t u hu =>
    refine ⟨.dateTime u, Except.bind_eq_ok_iff.mpr ⟨t, rfl, ?_⟩⟩
    rw [hu]
    rfl
  | @policy vocabulary p hp =>
    refine ⟨.policy p, Except.bind_eq_ok_iff.mpr ⟨p.wire, rfl, ?_⟩⟩
    rw [← hp, Vocabulary.ofWire?_wire]
    rfl

/-! ### What is refused -/

/-- No text, no policy: what is no text cannot be decoded. -/
theorem refusal_of_not_text (k : FieldKind) (h : v.text? = none) : k.refusal v = .decode := by
  unfold refusal
  split
  · cases h
  · rfl

/-- A value that is no text is reported with its tag. -/
theorem decodeText_of_not_text (tag : Text) (h : v.text? = none) :
    decodeText tag v = .error (.decoding "expected a string" tag v) := by
  rw [decodeText, h]

/-- A value that is no integer is reported with its tag. -/
theorem decodeInteger_of_not_int (tag : Text) (h : ∀ n, v ≠ .int n) :
    decodeInteger tag v = .error (.decoding "expected an integer" tag v) := by
  unfold decodeInteger
  split
  · exact absurd rfl (h _)
  · rfl

/-- What a kind does not take is refused: the error is of the class of the refusal and names the field
and the value. -/
theorem decode_of_not_takes {d : Dialect} (hv : v.IsJson d) (tag : Text) (h : ¬ k.Takes v) :
    ∃ r, k.decode tag v = .error (.report (k.refusal v) r) ∧ r.field = .text tag ∧ r.value = v := by
  cases k with
  | text =>
    have hno : v.text? = none := by
      rw [Option.eq_none_iff_forall_ne_some]
      intro t ht
      exact h (eq_text_of_isJson hv ht ▸ .text t)
    exact ⟨_, congrArg (Except.map fun _ => v) (decodeText_of_not_text tag hno), rfl, rfl⟩
  | integer =>
    have hno (n : Int) : v ≠ .int n := by
      rintro rfl
      exact h (.integer n)
    exact ⟨_, congrArg (Except.map Value.int) (decodeInteger_of_not_int tag hno), rfl, rfl⟩
  | duration =>
    have hno (n : Int) : v ≠ .int n := by
      rintro rfl
      exact h (.duration n)
    exact ⟨_, Except.bind_eq_error_iff.mpr (.inl (decodeInteger_of_not_int tag hno)), rfl, rfl⟩
  | date =>
    rcases ht : v.text? with _ | t
    · exact ⟨_, Except.bind_eq_error_iff.mpr (.inl (decodeText_of_not_text tag ht)), rfl, rfl⟩
    · obtain rfl := eq_text_of_isJson hv ht
      rcases hu : Timestamp.parse t with e | u
      · refine ⟨.about (e.message (Value.text t).literal) tag (.text t), ?_, rfl, rfl⟩
        refine Except.bind_eq_error_iff.mpr (.inr ⟨t, rfl, ?_⟩)
        rw [hu]
        rfl
      · exact absurd (.date hu) h
  | policy vocabulary =>
    rcases ht : v.text? with _ | t
    · refine ⟨.about "expected a string" tag v, ?_, rfl, rfl⟩
      rw [refusal_of_not_text _ ht]
      exact Except.bind_eq_error_iff.mpr (.inl (decodeText_of_not_text tag ht))
    · obtain rfl := eq_text_of_isJson hv ht
      rcases hp : vocabulary.ofWire? t with _ | p
      · refine ⟨.about ("unknown " ++ vocabulary.name) tag (.text t), ?_, rfl, rfl⟩
        refine Except.bind_eq_error_iff.mpr (.inr ⟨t, rfl, ?_⟩)
        rw [hp]
        rfl
      · obtain ⟨hvocabulary, rfl⟩ := Vocabulary.ofWire?_eq_some hp
        exact absurd (.policy hvocabulary) h

/-- A kind takes nothing that it refuses: what is decoded is what it takes. -/
theorem exists_decode_iff (hv : v.IsJson .strict) :
    (∃ w, k.decode tag v = .ok w) ↔ k.Takes v := by
  constructor
  · rintro ⟨w, hw⟩
    by_contra hno
    obtain ⟨r, hr, -⟩ := decode_of_not_takes hv tag hno
    rw [hw] at hr
    cases hr
  · exact exists_decode_of_takes hv tag

end FieldKind

namespace Document

/-- A document suits a field: the field finds nothing there, or what its kind takes. -/
def Suits (ms : Members) (tag : Text) (k : FieldKind) : Prop := ms.Lacks tag ∨ k.Takes (ms.get tag)

variable {ms : Members} {tag : Text} {k : FieldKind}

/-- A field is read from a document exactly if the document suits it. -/
theorem exists_read_iff (hms : (Value.dict ms).IsJson .strict) :
    (∃ o, read ms tag k = .ok o) ↔ Suits ms tag k := by
  rw [Suits, Members.lacks_iff, ← Value.isNull_iff, ← FieldKind.exists_decode_iff (hms.get tag), read]
  split
  · rename_i hnull
    exact iff_of_true ⟨none, rfl⟩ (.inl hnull)
  · rename_i hnull
    rw [or_iff_right hnull]
    constructor
    · rintro ⟨o, ho⟩
      obtain ⟨w, hw, -⟩ := Except.map_eq_ok_iff.mp ho
      exact ⟨w, hw⟩
    · rintro ⟨w, hw⟩
      exact ⟨some w, Except.map_eq_ok_iff.mpr ⟨w, hw, rfl⟩⟩

/-- A document that does not suit a field is refused for what it has there. -/
theorem read_of_not_suits {d : Dialect} (hms : (Value.dict ms).IsJson d) (h : ¬ Suits ms tag k) :
    ∃ r, read ms tag k = .error (.report (k.refusal (ms.get tag)) r) ∧ r.field = .text tag ∧
      r.value = ms.get tag := by
  obtain ⟨hthere, htakes⟩ := not_or.mp h
  rw [Members.lacks_iff, ← Value.isNull_iff] at hthere
  obtain ⟨r, hr, hnames⟩ := FieldKind.decode_of_not_takes (hms.get tag) tag htakes
  refine ⟨r, ?_, hnames⟩
  rw [read]
  exact (if_neg hthere).trans (Except.map_eq_error_iff.mpr hr)

end Document

end StreamConsumer
