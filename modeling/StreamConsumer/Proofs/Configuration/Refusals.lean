import StreamConsumer.Proofs.Configuration.Decoding
import StreamConsumer.Proofs.Document.Refusals

/-!
# Which documents are taken, and which field is to blame

A configuration is read from the members of a document of the strict dialect exactly if these suit all
fields. If they do not, the first field that they do not suit, in the order of `Field.all`, is to blame,
whatever else is wrong behind it. **Main statement** (`ofMembers_blames`).
-/

namespace StreamConsumer

namespace Configuration

variable {ms : Members} {c : Configuration}

/-- Fields are read exactly if the document suits all of them. -/
theorem exists_readFields_iff (hms : (Value.dict ms).IsJson .strict) :
    (∃ c', readFields ms c Field.all = .ok c') ↔ ∀ f : Field, Document.Suits ms f.tag f.kind := by
  have hfield (f : Field) : (∃ o, Document.read ms f.tag f.kind = .ok o) ↔
      Document.Suits ms f.tag f.kind := Document.exists_read_iff hms
  constructor
  · rintro ⟨c', h⟩ f
    exact (hfield f).mp ((readFields_eq_ok_iff.mp h).1 f f.mem_all)
  · intro hall
    rcases h : readFields ms c Field.all with e | c'
    · obtain ⟨f, hf⟩ := readFields_eq_error_iff.mp h
      obtain ⟨o, ho⟩ := (hfield f).mpr (hall f)
      rw [hf.fault] at ho
      cases ho
    · exact ⟨c', rfl⟩

/-- The first field that a document does not suit has its fault reported. -/
theorem readFields_of_not_suits (hms : (Value.dict ms).IsJson .strict) {before after : List Field}
    {f : Field} (hsplit : Field.all = before ++ f :: after)
    (hbefore : ∀ g ∈ before, Document.Suits ms g.tag g.kind)
    (hf : ¬ Document.Suits ms f.tag f.kind) {e : Fault}
    (he : Document.read ms f.tag f.kind = .error e) :
    readFields ms c Field.all = .error e := by
  have hnew : f ∉ before := fun hmem => hf (hbefore f hmem)
  rw [readFields_eq_error_iff, hsplit]
  refine ⟨f, (isFirstFault_append_iff hnew).mpr ⟨fun g hg => ?_, he⟩⟩
  exact (Document.exists_read_iff hms).mpr (hbefore g hg)

/-- **Acceptance and blame.** A configuration is read from the members of a document of the strict
dialect exactly if each field finds nothing there or what its kind takes. Where that is not so, the
first field of all for which it is not has its error reported, with its tag and its value: one about
the vocabulary for a text in the field of a policy, a decoding error for all else. -/
theorem ofMembers_blames (ms : Members) (hms : (Value.dict ms).IsJson .strict) :
    ((∃ c, (ofMembers ms).result = .ok c) ↔ ∀ f : Field, Document.Suits ms f.tag f.kind) ∧
    ∀ (before : List Field) (f : Field) (after : List Field), Field.all = before ++ f :: after →
      (∀ g ∈ before, Document.Suits ms g.tag g.kind) → ¬ Document.Suits ms f.tag f.kind →
      ∃ r, (ofMembers ms).result = .error (.report (f.kind.refusal (ms.get f.tag)) r) ∧
        r.field = .text f.tag ∧ r.value = ms.get f.tag := by
  refine ⟨exists_readFields_iff hms, ?_⟩
  intro before f after hsplit hbefore hf
  obtain ⟨r, hr, hnames⟩ := Document.read_of_not_suits hms hf
  exact ⟨r, readFields_of_not_suits hms hsplit hbefore hf hr, hnames⟩

/-- The tags in the order in which fields are read. -/
example : Field.all.map Field.tag =
    ["durable_name", "deliver_subject", "deliver_policy", "opt_start_seq", "opt_start_time",
      "ack_policy", "ack_wait", "max_deliver", "filter_subject", "replay_policy", "sample_freq",
      "rate_limit_bps", "max_ack_pending"] := rfl

/-- A truth value for a wait, in front of a word for the acknowledgements that is not in their vocabulary
and of a subject that is null. -/
def muddled : Members :=
  [(.text "ack_wait", .bool true), (.text "ack_policy", .text "sometimes"),
    (.text "filter_subject", .null)]

/-- The policy is to blame, because it is read before the wait. -/
theorem ofMembers_blames_muddled : (Value.dict muddled).IsJson .strict ∧
    (¬ ∃ c, (ofMembers muddled).result = .ok c) ∧
    ∃ r, (ofMembers muddled).result = .error (.report .policy r) ∧
      r.field = .text "ack_policy" ∧ r.value = .text "sometimes" := by
  have hms : (Value.dict muddled).IsJson .strict := by
    refine .dict ?_ ?_ ?_
    · intro m hm
      simp only [muddled, List.mem_cons, List.not_mem_nil, or_false] at hm
      rcases hm with rfl | rfl | rfl <;> exact ⟨_, rfl, fun _ => by decide⟩
    · have hkeys : muddled.map Prod.fst =
          (["ack_wait", "ack_policy", "filter_subject"] : List Text).map .text := rfl
      rw [hkeys]
      exact List.Nodup.map (fun _ _ => Value.text.inj) (by decide)
    · intro m hm
      simp only [muddled, List.mem_cons, List.not_mem_nil, or_false] at hm
      rcases hm with rfl | rfl | rfl
      · exact .bool true
      · exact .text fun _ => by decide
      · exact .null
  have hnull : ∀ g ∈ Field.all.take 5, (muddled.get g.tag).isNull = true := by decide
  have hbefore : ∀ g ∈ Field.all.take 5, Document.Suits muddled g.tag g.kind :=
    fun g hg => .inl (Members.lacks_iff.mpr (Value.isNull_iff.mp (hnull g hg)))
  have hpolicy : ¬ Document.Suits muddled Field.ackPolicy.tag Field.ackPolicy.kind := by
    rw [← Document.exists_read_iff hms, ← Except.isOk_iff]
    decide
  obtain ⟨haccepts, hblames⟩ := ofMembers_blames muddled hms
  refine ⟨hms, fun hok => hpolicy (haccepts.mp hok .ackPolicy), ?_⟩
  exact hblames (Field.all.take 5) .ackPolicy (Field.all.drop 6) rfl hbefore hpolicy

end Configuration

end StreamConsumer
