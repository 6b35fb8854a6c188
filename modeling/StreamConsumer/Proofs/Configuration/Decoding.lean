import StreamConsumer.CreateRequest
import StreamConsumer.Proofs.Document.Faults

/-!
# What a configuration takes from a document

Each field takes a value from the members of a document or finds none, `Configuration.taken`. A
configuration is read exactly if no field has a fault, and then it holds what its fields took and for
the others what it held before (`readFields_eq_ok_iff`); otherwise the fault is the first one
(`readFields_eq_error_iff`). Both kinds of answers are decoded this way once their members are found,
`decodeResponse_eq_ofMembers` and `parseResponse_eq_ofMembers`, and in no other way,
`exists_members_of_decodeResponse` and `exists_members_of_parseResponse`.
-/

namespace StreamConsumer

namespace Configuration

variable {ms : Members} {fs : List Field} {c c' : Configuration}

/-- What a field takes from a document, if anything. -/
def taken (ms : Members) (f : Field) : Option Value :=
  (Document.read ms f.tag f.kind).toOption.join

/-- What is taken for a field is what was read for it. -/
theorem taken_eq {f : Field} {o : Option Value} (h : Document.read ms f.tag f.kind = .ok o) :
    taken ms f = o := by
  rw [taken, h]
  rfl

/-- A configuration with a field set to what was taken, if anything was. -/
def put (c : Configuration) (f : Field) (o : Option Value) : Configuration := o.elim c (c.set f)

/-- What is put in one field is found there and nowhere else. -/
theorem get_put (c : Configuration) (f g : Field) (o : Option Value) :
    (c.put f o).get g = if g = f then o.getD (c.get f) else c.get g := by
  rcases o with _ | v
  · by_cases hgf : g = f
    · rw [if_pos hgf, hgf]
      rfl
    · rw [if_neg hgf]
      rfl
  · exact c.get_set f g v

/-- Fields are read one after another, each into what the ones before it left. -/
theorem readFields_cons (f : Field) : readFields ms c (f :: fs) =
    Document.read ms f.tag f.kind >>= fun o => readFields ms (c.put f o) fs := by
  rw [readFields, readField]
  rcases Document.read ms f.tag f.kind with _ | _ | v <;> rfl

/-- **Reading.** A configuration is read exactly if no field of the list has a fault, and then it holds
what these fields took; a field that took nothing or is not in the list keeps its value. -/
theorem readFields_eq_ok_iff : readFields ms c fs = .ok c' ↔
    (∀ f ∈ fs, ∃ o, Document.read ms f.tag f.kind = .ok o) ∧
      ∀ g, c'.get g = if g ∈ fs then (taken ms g).getD (c.get g) else c.get g := by
  induction fs generalizing c with
  | nil =>
    constructor
    · intro h
      obtain rfl := Except.ok.inj h
      exact ⟨List.forall_mem_nil _, fun g => rfl⟩
    · rintro ⟨-, h⟩
      exact congrArg Except.ok (ext_get fun g => (h g).symm)
  | cons f fs ih =>
    -- What the first field leaves is what the list as a whole finds.
    have hget {o : Option Value} (ho : Document.read ms f.tag f.kind = .ok o) (g : Field) :
        (if g ∈ fs then (taken ms g).getD ((c.put f o).get g) else (c.put f o).get g) =
          if g ∈ f :: fs then (taken ms g).getD (c.get g) else c.get g := by
      rw [get_put, ← taken_eq ho]
      by_cases hgf : g = f
      · subst hgf
        rcases taken ms g with _ | v <;> simp
      · simp [hgf]
    rw [readFields_cons, Except.bind_eq_ok_iff]
    constructor
    · rintro ⟨o, ho, h⟩
      obtain ⟨hfs, hc'⟩ := ih.mp h
      exact ⟨List.forall_mem_cons.mpr ⟨⟨o, ho⟩, hfs⟩, fun g => by rw [hc', hget ho]⟩
    · rintro ⟨hall, hc'⟩
      obtain ⟨⟨o, ho⟩, hfs⟩ := List.forall_mem_cons.mp hall
      exact ⟨o, ho, ih.mpr ⟨hfs, fun g => by rw [hc', hget ho]⟩⟩

/-- The fault of a configuration that is not read is that of the first field with one. -/
theorem readFields_eq_error_iff {e : Fault} : readFields ms c fs = .error e ↔
    ∃ f, IsFirstFault (fun f => Document.read ms f.tag f.kind) fs f e := by
  induction fs generalizing c with
  | nil =>
    constructor
    · intro h
      cases h
    · rintro ⟨_, h⟩
      cases h
  | cons f fs ih =>
    rw [readFields_cons, Except.bind_eq_error_iff]
    simp only [ih]
    constructor
    · rintro (h | ⟨o, ho, g, hg⟩)
      · exact ⟨f, .here h⟩
      · exact ⟨g, .there ho hg⟩
    · rintro ⟨g, h | ⟨ho, hg⟩⟩
      · exact .inl h
      · exact .inr ⟨_, ho, g, hg⟩

/-! ### Answers -/

variable {d : Dialect} {source : Value} {doc : Members}

/-- An answer with the members of a configuration is decoded from these. -/
theorem decodeResponse_eq_ofMembers (hload : Document.load d source = .ok doc)
    (hms : doc.get Document.configurationTag = .dict ms) :
    decodeResponse d source = ofMembers ms := by
  simp only [decodeResponse, hload, hms, bind, Outcome.andThen, liftM, monadLift, MonadLift.monadLift,
    Outcome.ofExcept, Value.isNull, Document.object]
  rfl

/-- What comes of an answer: the document, its configuration, the fields of this one after another. -/
theorem result_decodeResponse (d : Dialect) (source : Value) : (decodeResponse d source).result =
    Document.load d source >>= fun doc =>
      let config := doc.get Document.configurationTag
      if config.isNull then
        .error (.decoding "response has no config" Document.configurationTag .null)
      else Document.object Document.configurationTag config >>= fun ms =>
        readFields ms standard Field.all := by
  rw [decodeResponse, Outcome.result_bind]
  refine congrArg (Document.load d source >>= ·) (funext fun doc => ?_)
  rcases hconfig : (doc.get Document.configurationTag).isNull with _ | _
  · simp only [hconfig, Bool.false_eq_true, if_false, Outcome.result_bind]
    rfl
  · simp only [hconfig, if_true]
    rfl

/-- An answer that is decoded has the members of a configuration, from which this is read. -/
theorem exists_members_of_decodeResponse (h : (decodeResponse d source).result = .ok c) :
    ∃ doc ms, Document.load d source = .ok doc ∧ doc.get Document.configurationTag = .dict ms ∧
      readFields ms standard Field.all = .ok c := by
  rw [result_decodeResponse] at h
  obtain ⟨doc, hdoc, h⟩ := Except.bind_eq_ok_iff.mp h
  simp only at h
  split at h
  · cases h
  · obtain ⟨ms, hobject, h⟩ := Except.bind_eq_ok_iff.mp h
    exact ⟨doc, ms, hdoc, Document.object_eq_ok hobject, h⟩

end Configuration

namespace CreateRequest

variable {d : Dialect} {source : Value} {doc ms : Members} {c : Configuration}

/-- An answer without an error is decoded like any other. -/
theorem parseResponse_eq_ofMembers (hload : Document.load d source = .ok doc)
    (herror : doc.get Document.errorTag = .null)
    (hms : doc.get Document.configurationTag = .dict ms) :
    parseResponse d source = Configuration.ofMembers ms := by
  simp only [parseResponse, reportedError, hload, hms, herror, bind, Outcome.andThen, liftM, monadLift,
    MonadLift.monadLift, Outcome.ofExcept, Value.isNull, Document.object]
  rfl

/-- What comes of an answer: the document, the error that it reports, its configuration, the fields of
this one after another. -/
theorem result_parseResponse (d : Dialect) (source : Value) : (parseResponse d source).result =
    Document.load d source >>= fun doc => reportedError doc >>= fun _ =>
      Document.object Document.configurationTag (doc.get Document.configurationTag) >>= fun ms =>
        Configuration.readFields ms .standard Field.all := by
  rw [parseResponse, Outcome.result_bind]
  refine congrArg (Document.load d source >>= ·) (funext fun doc => ?_)
  rw [Outcome.result_bind]
  refine congrArg (reportedError doc >>= ·) (funext fun _ => ?_)
  rw [Outcome.result_bind]
  rfl

/-- So has one without an error. -/
theorem exists_members_of_parseResponse (h : (parseResponse d source).result = .ok c) :
    ∃ doc ms, Document.load d source = .ok doc ∧ reportedError doc = .ok () ∧
      doc.get Document.configurationTag = .dict ms ∧
      Configuration.readFields ms .standard Field.all = .ok c := by
  rw [result_parseResponse] at h
  obtain ⟨doc, hdoc, h⟩ := Except.bind_eq_ok_iff.mp h
  obtain ⟨⟨⟩, herror, h⟩ := Except.bind_eq_ok_iff.mp h
  obtain ⟨ms, hobject, h⟩ := Except.bind_eq_ok_iff.mp h
  exact ⟨doc, ms, hdoc, herror, Document.object_eq_ok hobject, h⟩

end CreateRequest

end StreamConsumer
