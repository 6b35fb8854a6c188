import StreamConsumer.Proofs.Configuration.RoundTrip

/-!
# The three parts of a create request

A request that is prepared holds one configuration in three forms. Its configuration is the base with
what was decided in place of its own (`get_finalize`); its payload is the UTF-8 of that configuration's
request, which both dialects and both kinds of answers read back as that configuration; its subject
names the durable consumer exactly if that configuration does (`subjectOf_durable`,
`subjectOf_ephemeral`). **Main statement** (`prepare_agrees`): the three agree for every base and all
decisions, the falsy ones that were made included.
-/

namespace StreamConsumer

namespace Overrides

/-- What was decided for a field, null where nothing was or nothing can be. -/
def get (o : Overrides) : Field → Value
  | .durable => o.durable
  | .deliverSubject => o.deliverSubject
  | .filterSubject => o.filterSubject
  | .maxAckPending => o.maxAckPending
  | _ => .null

/-- Every decision that was made is for a value that the kind of the field admits. -/
def WellTyped (o : Overrides) : Prop :=
  ∀ f : Field, o.get f = .null ∨ f.kind.admits (o.get f) = true

/-- No decision is for a text with surrogates. -/
def IsScalar (o : Overrides) : Prop := ∀ f : Field, (o.get f).IsScalar

end Overrides

namespace Configuration

variable {c : Configuration} {o : Overrides}

/-- What was decided stands in place of what was there, whatever it is; all else stays. -/
theorem get_finalize (c : Configuration) (o : Overrides) (f : Field) :
    (c.finalize o).get f = if (o.get f).isNull then c.get f else o.get f := by
  have hstep (c : Configuration) (f g : Field) (v : Value) :
      (if (!v.isNull) = true then c.set f v else c).get g =
        if g = f then if v.isNull then c.get g else v else c.get g := by
    rcases v.isNull with _ | _
    · simp [get_set]
    · simp
  unfold finalize Overrides.decided
  rw [List.foldl_filter]
  simp only [Overrides.fields, List.foldl_cons, List.foldl_nil, hstep]
  cases f <;> rfl

/-- What is decided keeps a configuration well typed. -/
theorem wellTyped_finalize (hc : c.WellTyped) (ho : o.WellTyped) : (c.finalize o).WellTyped := by
  intro f
  rw [get_finalize]
  split
  · exact hc f
  · rename_i hnull
    rcases ho f with h | h
    · exact absurd (Value.isNull_iff.mpr h) hnull
    · exact h

/-- It brings no surrogates in. -/
theorem isScalar_finalize (hc : c.IsScalar) (ho : o.IsScalar) : (c.finalize o).IsScalar := by
  intro f
  rw [get_finalize]
  split
  · exact hc f
  · exact ho f

end Configuration

namespace CreateRequest

/-- A durable name that is not empty is part of the subject. -/
theorem subjectOf_durable (stream leading : Text) {n : Text} (h : n ≠ []) :
    subjectOf (.text stream) (.text n) (.text leading) =
      leading ++ ".CONSUMER.DURABLE.CREATE." ++ stream ++ "." ++ n := by
  have htruthy : (Value.text n).truthy = true := by simpa [Value.truthy] using h
  rw [subjectOf, if_pos htruthy]
  rfl

/-- Without a durable name the subject ends with the stream. -/
theorem subjectOf_ephemeral (stream leading : Text) {v : Value} (h : v = .null ∨ v = .text []) :
    subjectOf (.text stream) v (.text leading) = leading ++ ".CONSUMER.CREATE." ++ stream := by
  obtain rfl | rfl := h <;> rfl

/-- What comes of preparing: nothing without a stream, else the configuration, its subject and its
text in UTF-8. -/
theorem result_prepare (d : Dialect) (stream : Value) (base : Option Configuration) (o : Overrides)
    (leading : Value) : (prepare d stream base o leading).result =
      let config := (base.getD .standard).finalize o
      if stream.truthy then
        (config.encodeRequest d stream).map fun t =>
          ⟨subjectOf stream config.durable leading, config, Utf8.encode t⟩
      else .error .streamRequired := by
  unfold prepare
  rcases hstream : stream.truthy with _ | _
  · rfl
  · simp only [Bool.not_true, Bool.false_eq_true, if_false, if_true, Outcome.result_bind]
    rcases ((base.getD .standard).finalize o).encodeRequest d stream with e | t <;> rfl

/-- **Agreement.** The configuration of a prepared request is the base, or the defaults, with all
decisions that were made. The payload is the UTF-8 of its request, which names the stream and is read
back by either dialect, as a document and as an answer of either kind, as that configuration with its
start told in UTC. The subject names the durable consumer if that configuration has a durable name
that is not empty. -/
theorem prepare_agrees (d d' : Dialect) {stream leading : Text} (hstream : stream.IsScalar)
    {base : Option Configuration} (hbase : ∀ c ∈ base, c.WellTyped ∧ c.IsScalar) {o : Overrides}
    (ho : o.WellTyped) (hos : o.IsScalar) {r : CreateRequest}
    (h : (prepare d (.text stream) base o (.text leading)).result = .ok r) :
    (∀ f, r.config.get f =
      if (o.get f).isNull then (base.getD .standard).get f else o.get f) ∧
    (∃ t, r.config.encodeRequest d (.text stream) = .ok t ∧ r.payload = Utf8.encode t) ∧
    (∃ doc, Document.load d' (.bytes .fixed r.payload) = .ok doc ∧
      doc.get Document.streamTag = .text stream) ∧
    (∃ c, Configuration.decodeResponse d' (.bytes .fixed r.payload) = ⟨[], .ok c⟩ ∧
      parseResponse d' (.bytes .fixed r.payload) = ⟨[], .ok c⟩ ∧ r.config.ToldInUtc c) ∧
    (∀ n : Text, n ≠ [] → r.config.durable = .text n →
      r.subject = leading ++ ".CONSUMER.DURABLE.CREATE." ++ stream ++ "." ++ n) ∧
    (r.config.durable = .null ∨ r.config.durable = .text [] →
      r.subject = leading ++ ".CONSUMER.CREATE." ++ stream) := by
  have hgetD : (base.getD .standard).WellTyped ∧ (base.getD .standard).IsScalar := by
    cases base with
    | none => exact ⟨Configuration.wellTyped_standard, Configuration.isScalar_standard⟩
    | some c => exact hbase c rfl
  rw [result_prepare] at h
  split at h
  · obtain ⟨t, ht, rfl⟩ := Except.map_eq_ok_iff.mp h
    have hc := Configuration.wellTyped_finalize hgetD.1 ho
    have hs := Configuration.isScalar_finalize hgetD.2 hos
    obtain ⟨ms, hms, hnot⟩ := Configuration.isNotation_encodeRequest hc hs hstream ht
    obtain ⟨-, hload⟩ := Document.load_of_isNotation hnot d'
    have hconfig := Configuration.get_request_configuration (.text stream) ms
    have hof := Configuration.ofMembers_toMembers hc hms
    refine ⟨Configuration.get_finalize _ o, ⟨t, ht, rfl⟩,
      ⟨_, hload, Configuration.get_request_stream (.text stream) ms⟩,
      ⟨_, ?_, ?_, Configuration.toldInUtc_inUtc hms⟩, ?_, ?_⟩
    · rw [Configuration.decodeResponse_eq_ofMembers hload hconfig, hof]
    · rw [parseResponse_eq_ofMembers hload (Configuration.get_request_error (.text stream) ms) hconfig,
        hof]
    · intro n hn hdurable
      exact (congrArg (subjectOf _ · _) hdurable).trans (subjectOf_durable stream leading hn)
    · intro hdurable
      exact subjectOf_ephemeral stream leading hdurable
  · simp at h

/-- Decisions for the empty text and for zero: both count, and with an empty durable name the consumer
is not durable, whatever the base says. -/
def falsyOverrides : Overrides where
  durable := .text []
  maxAckPending := .int 0

/-- Both are found in the request, its subject is that of no durable consumer, and a server that sends
its configuration back is understood. -/
theorem prepare_agrees_falsy : ∃ r,
    (prepare .lenient (.text "ORDERS") (some .extreme) falsyOverrides (.text defaultPrefix)).result =
        .ok r ∧
      r.config.durable = .text [] ∧ r.config.maxAckPending = .int 0 ∧
      r.subject = "$JS.API" ++ ".CONSUMER.CREATE." ++ "ORDERS" ∧
      ∃ c, parseResponse .strict (.bytes .fixed r.payload) = ⟨[], .ok c⟩ := by
  have hbase : ∀ c ∈ some Configuration.extreme, c.WellTyped ∧ c.IsScalar := by
    intro c hc
    obtain rfl := Option.some.inj hc
    exact ⟨Configuration.wellTyped_extreme, Configuration.isScalar_extreme⟩
  have ho : falsyOverrides.WellTyped := by
    intro f
    cases f <;> first | exact .inl rfl | exact .inr rfl
  have hos : falsyOverrides.IsScalar := by
    intro f t ht
    cases f <;> cases ht
    exact List.forall_mem_nil _
  have hstream : Text.IsScalar "ORDERS" := by decide
  have hok : (prepare .lenient (.text "ORDERS") (some .extreme) falsyOverrides
      (.text defaultPrefix)).result.isOk = true := by decide +kernel
  obtain ⟨r, hr⟩ := Except.isOk_iff.mp hok
  obtain ⟨hget, -, -, ⟨c, -, hparse, -⟩, -, hephemeral⟩ :=
    prepare_agrees .lenient .strict hstream hbase ho hos hr
  have hdurable : r.config.durable = .text [] := hget .durable
  exact ⟨r, hr, hdurable, hget .maxAckPending, hephemeral (.inr hdurable), c, hparse⟩

end CreateRequest

end StreamConsumer
