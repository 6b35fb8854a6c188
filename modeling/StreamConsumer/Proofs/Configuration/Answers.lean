import StreamConsumer.Proofs.Configuration.DecodingFaults
import StreamConsumer.Proofs.Value.Number

/-!
# Two kinds of answers, one decoder

`Configuration.decodeResponse` passes over an error that an answer reports, `CreateRequest.parseResponse`
reads it first. **Main statement** (`parseResponse_agrees`): that is all in which they differ. What is no
document is refused by both with one error; an error that is reported keeps a configuration from being
read, whatever else the document holds; and where none is reported both come to one configuration or to
faults that differ in their wording at most (`Fault.Alike`).

An error that is reported belongs to the class that its code stands for as a number,
`ApiStatus.StandsFor`.
-/

namespace StreamConsumer

/-- The class of an error that is reported fits the code it came with. -/
def ApiStatus.StandsFor (code : Value) : ApiStatus → Prop
  | serviceUnavailable => code.rational? = some 503
  | server => code.rational? = some 500
  | notFound => code.rational? = some 404
  | badRequest => code.rational? = some 400
  | other => ∀ n ∈ [503, 500, 404, 400], code.rational? ≠ some n

/-- An error gets the class that its code stands for. -/
theorem ApiError.standsFor_statusOf (code : Value) : (statusOf code).StandsFor code := by
  have hnumber {n : Int} (h : ¬ code.equal (.int n) = true) : code.rational? ≠ some (n : ℚ) :=
    mt (code.equal_int_iff n).mpr h
  unfold statusOf
  split
  · rename_i h503
    exact (code.equal_int_iff 503).mp h503
  rename_i h503
  split
  · rename_i h500
    exact (code.equal_int_iff 500).mp h500
  rename_i h500
  split
  · rename_i h404
    exact (code.equal_int_iff 404).mp h404
  rename_i h404
  split
  · rename_i h400
    exact (code.equal_int_iff 400).mp h400
  rename_i h400
  intro n hn
  simp only [List.mem_cons, List.not_mem_nil, or_false] at hn
  obtain rfl | rfl | rfl | rfl := hn
  · exact hnumber h503
  · exact hnumber h500
  · exact hnumber h404
  · exact hnumber h400

/-- Two faults are the same but for the wording of what they report: they are of one class, and a report
names the same field and the same value. -/
inductive Fault.Alike : Fault → Fault → Prop where
  /-- They are the same altogether. -/
  | same (e : Fault) : Alike e e
  /-- They report the same. -/
  | worded (kind : ReportKind) {r r' : FieldReport} (hfield : r.field = r'.field)
    (hvalue : r.value = r'.value) : Alike (.report kind r) (.report kind r')

/-- Decoding errors about one value of one field are alike. -/
theorem Fault.Alike.decoding (description description' tag : Text) (v : Value) :
    Alike (.decoding description tag v) (.decoding description' tag v) := .worded .decode rfl rfl

/-- What is no object has a decoding error that names the tag and shows the value. -/
theorem Document.object_of_ne_dict {tag : Text} {v : Value} (h : ∀ ms, v ≠ .dict ms) :
    object tag v = .error (.decoding "expected a JSON object" tag v) := by
  cases v with
  | dict ms => exact absurd rfl (h ms)
  | _ => rfl

namespace CreateRequest

variable {d : Dialect} {source : Value} {doc : Members}

/-- What comes of a document: the error that it reports, or what its configuration is read to. -/
theorem result_parseResponse_of_load (hload : Document.load d source = .ok doc) :
    (parseResponse d source).result = reportedError doc >>= fun _ =>
      Document.object Document.configurationTag (doc.get Document.configurationTag) >>= fun ms =>
        Configuration.readFields ms .standard Field.all := by
  rw [result_parseResponse, hload]
  rfl

/-- An error that is described is reported, whatever configuration comes with it. -/
theorem parseResponse_of_error {ms : Members} (hload : Document.load d source = .ok doc)
    (herror : doc.get Document.errorTag = .dict ms) :
    (parseResponse d source).result = .error (.api (ApiError.ofMembers ms)) := by
  rw [result_parseResponse_of_load hload, reportedError_eq, herror]
  rfl

/-- An error that is neither described nor null is refused. -/
theorem parseResponse_of_ne_dict (hload : Document.load d source = .ok doc)
    (hnull : doc.get Document.errorTag ≠ .null) (hdict : ∀ ms, doc.get Document.errorTag ≠ .dict ms) :
    (parseResponse d source).result = .error (.decoding "expected a JSON object" Document.errorTag
      (doc.get Document.errorTag)) := by
  rw [result_parseResponse_of_load hload, reportedError_eq, if_neg (mt Value.isNull_iff.mp hnull),
    Document.object_of_ne_dict hdict]
  rfl

/-- Without an error that is reported both decoders come to the same, but for the wording of the report
that there is no configuration. -/
theorem decoders_alike (hload : Document.load d source = .ok doc)
    (hnull : doc.get Document.errorTag = .null) :
    (∃ c, (Configuration.decodeResponse d source).result = .ok c ∧
      (parseResponse d source).result = .ok c) ∨
    ∃ e e', (Configuration.decodeResponse d source).result = .error e ∧
      (parseResponse d source).result = .error e' ∧ e.Alike e' := by
  rw [result_parseResponse_of_load hload, reportedError_of_null hnull,
    Configuration.result_decodeResponse, hload]
  simp only [bind, Except.bind]
  by_cases hconfig : doc.get Document.configurationTag = .null
  · -- Only here does one of them look twice: what is null is also no object.
    right
    rw [hconfig]
    exact ⟨_, _, rfl, rfl, .decoding _ _ Document.configurationTag .null⟩
  · rw [if_neg (mt Value.isNull_iff.mp hconfig)]
    rcases Document.object Document.configurationTag (doc.get Document.configurationTag) with e | ms
    · exact .inr ⟨e, e, rfl, rfl, .same e⟩
    · dsimp only
      rcases Configuration.readFields ms .standard Field.all with e | c
      · exact .inr ⟨e, e, rfl, rfl, .same e⟩
      · exact .inl ⟨c, rfl, rfl⟩

/-- **Agreement of the decoders.** Whatever the source is: if it is no document, both refuse it with the
same decoding error. If its error is an object, an answer to a create request fails with what that
object describes, in the class that its code stands for; if it is anything else but null, the decoding
error names it. In neither case is there a configuration. Otherwise both have the same configuration or
faults that are alike. -/
theorem parseResponse_agrees (d : Dialect) (source : Value) :
    (∀ e, Document.load d source = .error e → e.IsA (.report .decode) ∧
      (Configuration.decodeResponse d source).result = .error e ∧
      (parseResponse d source).result = .error e) ∧
    ∀ doc, Document.load d source = .ok doc →
      (∀ ms, doc.get Document.errorTag = .dict ms → ∃ e : ApiError,
        (parseResponse d source).result = .error (.api e) ∧ e.status.StandsFor (Members.get ms "code") ∧
          e.code = Members.get ms "code" ∧ e.errCode = Members.get ms "err_code" ∧
          e.description = Members.get ms "description") ∧
      (doc.get Document.errorTag ≠ .null → (∀ ms, doc.get Document.errorTag ≠ .dict ms) →
        ∃ r : FieldReport, (parseResponse d source).result = .error (.report .decode r) ∧
          r.field = .text Document.errorTag ∧ r.value = doc.get Document.errorTag) ∧
      (doc.get Document.errorTag = .null →
        (∃ c, (Configuration.decodeResponse d source).result = .ok c ∧
          (parseResponse d source).result = .ok c) ∨
        ∃ e e', (Configuration.decodeResponse d source).result = .error e ∧
          (parseResponse d source).result = .error e' ∧ e.Alike e') := by
  constructor
  · intro e he
    refine ⟨Document.load_eq_error he, ?_, ?_⟩
    · rw [Configuration.result_decodeResponse, he]
      rfl
    · rw [result_parseResponse, he]
      rfl
  · intro doc hload
    refine ⟨?_, ?_, decoders_alike hload⟩
    · intro ms herror
      exact ⟨_, parseResponse_of_error hload herror, ApiError.standsFor_statusOf _, rfl, rfl, rfl⟩
    · intro hnull hdict
      exact ⟨_, parseResponse_of_ne_dict hload hnull hdict, rfl, rfl⟩

/-- An answer with a configuration and an error whose code is the number 404, written with a point. -/
def missingStream : Text :=
  "\x7b\"config\":\x7b\"durable_name\":\"d\"\x7d,\"error\":\x7b\"code\":404.0,\"description\":\"no stream\"\x7d\x7d"

/-- The error is one about what was not found, although there is a configuration. -/
theorem parseResponse_agrees_missingStream : ∃ e : ApiError,
    (parseResponse .strict (.text missingStream)).result = .error (.api e) ∧ e.status = .notFound ∧
      ∃ c, (Configuration.decodeResponse .strict (.text missingStream)).result = .ok c := by
  have hcode : (((Document.load .strict (.text missingStream)).toOption.bind fun doc =>
      (Document.object Document.errorTag (doc.get Document.errorTag)).toOption).map fun ms =>
      (Members.get ms "code").rational?) = some (some 404) := by decide +kernel
  have hok : (Configuration.decodeResponse .strict (.text missingStream)).result.isOk = true := by
    decide +kernel
  obtain ⟨ms, hms, hcode⟩ := Option.map_eq_some_iff.mp hcode
  obtain ⟨doc, hdoc, hms⟩ := Option.bind_eq_some_iff.mp hms
  have herror := Document.object_eq_ok (Except.toOption_eq_some_iff.mp hms)
  obtain ⟨e, he, hstatus, -⟩ := ((parseResponse_agrees .strict _).2 doc
    (Except.toOption_eq_some_iff.mp hdoc)).1 ms herror
  refine ⟨e, he, ?_, Except.isOk_iff.mp hok⟩
  rcases hclass : e.status with _ | _ | _ | _ | _ <;> rw [hclass] at hstatus
  all_goals simp [ApiStatus.StandsFor, hcode] at hstatus ⊢

end CreateRequest

end StreamConsumer
