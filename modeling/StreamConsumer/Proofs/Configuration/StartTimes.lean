import StreamConsumer.Proofs.Calendar.Strictness
import StreamConsumer.Proofs.Configuration.Decoding

/-!
# What is taken for a start

The start of a configuration travels as a text. A text that is no timestamp is refused with a decoding
error that names the field and shows the text (`Document.read_date_of_parse_eq_error`), and no
configuration is read from a document that holds it.

**Main statement** (`parse_isDateTime_iff`): a text is taken for nothing but a date and time of RFC 3339
exactly if it is not loose, and whatever is not taken is refused in this way.
-/

namespace StreamConsumer

open Timestamp

/-- A text that is no timestamp is refused under the tag of its field. -/
theorem Document.read_date_of_parse_eq_error {ms : Members} {tag t : Text} {e : TimestampError}
    (ht : ms.get tag = .text t) (he : parse t = .error e) :
    read ms tag .date = .error (.decoding (e.message (Value.text t).literal) tag (.text t)) := by
  have hdecode : FieldKind.decode .date tag (.text t) =
      .error (.decoding (e.message (Value.text t).literal) tag (.text t)) := by
    refine Except.bind_eq_error_iff.mpr (.inr ⟨t, rfl, ?_⟩)
    rw [he]
    rfl
  rw [read, ht, hdecode]
  rfl

namespace Configuration

variable {ms : Members} {c : Configuration}

/-- The start is at fault if it is refused and the fields that are read before it are not. -/
theorem readFields_of_start_refused {e : Fault}
    (hbefore : ∀ f ∈ [Field.durable, .deliverSubject, .deliverPolicy, .startSequence],
      ∃ o, Document.read ms f.tag f.kind = .ok o)
    (he : Document.read ms Field.startTime.tag .date = .error e) :
    readFields ms c Field.all = .error e := by
  have hsplit : Field.all = [.durable, .deliverSubject, .deliverPolicy, .startSequence] ++
      Field.startTime :: Field.all.drop 5 := rfl
  rw [readFields_eq_error_iff, hsplit]
  exact ⟨.startTime, (isFirstFault_append_iff (by decide)).mpr ⟨hbefore, he⟩⟩

/-- **Strictness.** All that a text is taken for is a date and time of RFC 3339, exactly if it is not
loose. Where it is not taken, a document that holds it as the start is refused: the field has a decoding
error with its tag and the text, no configuration is read, and the error is the one reported unless a
field before it is at fault too. -/
theorem parse_isDateTime_iff (t : Text) :
    ((∀ u, parse t = .ok u → IsDateTime t) ↔ ¬ IsLoose t) ∧
      ∀ e, parse t = .error e → ∀ ms : Members, ms.get Field.startTime.tag = .text t →
        let refusal := Fault.decoding (e.message (Value.text t).literal) Field.startTime.tag (.text t)
        Document.read ms Field.startTime.tag Field.startTime.kind = .error refusal ∧
          (¬ ∃ c, (ofMembers ms).result = .ok c) ∧
          ((∀ f ∈ [Field.durable, .deliverSubject, .deliverPolicy, .startSequence],
            ∃ o, Document.read ms f.tag f.kind = .ok o) → (ofMembers ms).result = .error refusal) := by
  constructor
  · rw [isLoose_iff, not_and_not_right, forall_exists_index]
  · intro e he ms hms
    have hread := Document.read_date_of_parse_eq_error hms he
    refine ⟨hread, ?_, fun hbefore => readFields_of_start_refused hbefore hread⟩
    rintro ⟨c, hc⟩
    obtain ⟨o, ho⟩ := (readFields_eq_ok_iff.mp hc).1 .startTime (by decide)
    rw [show Field.startTime.kind = .date from rfl, hread] at ho
    cases ho

/-- The start of a leap second, which no clock shows here, behind a subject that is null. -/
def leapSecond : Members :=
  [(.text "deliver_subject", .null), (.text "opt_start_time", .text "2016-12-31T23:59:60Z")]

/-- Such a start is refused, and the error names it. -/
theorem parse_isDateTime_iff_leapSecond : parse "2016-12-31T23:59:60Z" = .error .second ∧
    leapSecond.get Field.startTime.tag = .text "2016-12-31T23:59:60Z" ∧
    ∃ r, (ofMembers leapSecond).result = .error (.report .decode r) ∧
      r.field = .text "opt_start_time" ∧ r.value = .text "2016-12-31T23:59:60Z" := by
  have hparse : parse "2016-12-31T23:59:60Z" = .error .second := by decide +kernel
  have hbefore : ∀ f ∈ [Field.durable, .deliverSubject, .deliverPolicy, .startSequence],
      ∃ o, Document.read leapSecond f.tag f.kind = .ok o := by
    intro f hf
    simp only [List.mem_cons, List.not_mem_nil, or_false] at hf
    rcases hf with rfl | rfl | rfl | rfl <;> exact ⟨none, rfl⟩
  obtain ⟨-, hrefused⟩ := parse_isDateTime_iff "2016-12-31T23:59:60Z"
  obtain ⟨-, -, hresult⟩ := hrefused .second hparse leapSecond rfl
  exact ⟨hparse, rfl, _, hresult hbefore, rfl, rfl⟩

end Configuration

end StreamConsumer
