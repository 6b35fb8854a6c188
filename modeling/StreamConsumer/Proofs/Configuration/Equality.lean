import StreamConsumer.Proofs.Configuration.RoundTrip

/-!
# Equal configurations, one text

Equality sees a start as an instant, the wire carries it as a clock in UTC. Values that a kind of field
admits are equal exactly if they are the same or two clocks that show one instant
(`FieldKind.equal_iff_coincides`), and such clocks have one clock in UTC, if they have any.

**Main statement** (`encodeRequest_canonical`): equal configurations come to the same text or to the same
fault, and the text of a request is what is written for the configuration that is read from it.
-/

namespace StreamConsumer

namespace Value

/-- Two values are the same, or they are clocks that show one instant, both with an offset or both
without. -/
inductive Coincides : Value → Value → Prop where
  /-- They are the same. -/
  | same (v : Value) : Coincides v v
  /-- They show one instant. -/
  | clocks {d e : DateTime} (hoffset : d.offset.isSome = e.offset.isSome)
    (hinstant : d.instant = e.instant) : Coincides (.dateTime d) (.dateTime e)

variable {u v w : Value}

/-- Coincidence goes both ways. -/
theorem Coincides.symm (h : v.Coincides w) : w.Coincides v := by
  cases h with
  | same => exact .same v
  | clocks hoffset hinstant => exact .clocks hoffset.symm hinstant.symm

/-- What coincides with a third coincides. -/
theorem Coincides.trans (huv : u.Coincides v) (hvw : v.Coincides w) : u.Coincides w := by
  cases huv with
  | same => exact hvw
  | clocks hoffset hinstant =>
    cases hvw with
    | same => exact .clocks hoffset hinstant
    | clocks hoffset' hinstant' =>
      exact .clocks (hoffset.trans hoffset') (hinstant.trans hinstant')

/-- Dates are equal exactly if both or neither have an offset and their instants are the same. -/
theorem equal_dateTime_dateTime (d e : DateTime) : (dateTime d).equal (dateTime e) = true ↔
    d.offset.isSome = e.offset.isSome ∧ d.instant = e.instant := by
  rw [equal, Bool.and_eq_true, beq_iff_eq, beq_iff_eq]

end Value

namespace FieldKind

variable {k : FieldKind} {tag : Text} {v w : Value}

/-- **Equality.** What a kind admits is equal by meaning exactly if it coincides. -/
theorem equal_iff_coincides (hv : k.admits v = true) (hw : k.admits w = true) :
    v.equal w = true ↔ v.Coincides w := by
  constructor
  · intro h
    cases k with
    | text =>
      obtain rfl | ⟨s, rfl⟩ := admits_text hv <;> obtain rfl | ⟨t, rfl⟩ := admits_text hw
      · exact .same _
      · cases h
      · cases h
      · rw [Value.equal_text_text, decide_eq_true_eq] at h
        rw [h]
        exact .same _
    | integer =>
      obtain ⟨m, rfl⟩ := admits_integer hv
      obtain ⟨n, rfl⟩ := admits_integer hw
      rw [Value.equal, beq_iff_eq] at h
      rw [h]
      exact .same _
    | duration =>
      obtain ⟨d, rfl⟩ := admits_duration hv
      obtain ⟨e, rfl⟩ := admits_duration hw
      rw [Value.equal, beq_iff_eq] at h
      obtain rfl : d = e := by
        cases d
        cases e
        simpa using h
      exact .same _
    | date =>
      obtain rfl | ⟨d, rfl⟩ := admits_date hv <;> obtain rfl | ⟨e, rfl⟩ := admits_date hw
      · exact .same _
      · cases h
      · cases h
      · obtain ⟨hoffset, hinstant⟩ := (Value.equal_dateTime_dateTime d e).mp h
        exact .clocks hoffset hinstant
    | policy vocabulary =>
      obtain ⟨p, rfl, rfl⟩ := admits_policy hv
      obtain ⟨q, rfl, hq⟩ := admits_policy hw
      rw [Value.equal, Value.text?, beq_iff_eq, Option.some_inj] at h
      -- Words are unique within the vocabulary.
      have hfound := Vocabulary.ofWire?_wire q
      rw [hq, h, Vocabulary.ofWire?_wire] at hfound
      rw [Option.some.inj hfound]
      exact .same _
  · intro h
    cases h with
    | same => exact Value.equal_self_of_admits hv
    | clocks hoffset hinstant => exact (Value.equal_dateTime_dateTime _ _).mpr ⟨hoffset, hinstant⟩

/-- The clock in UTC is that of the instant. -/
theorem timestamp_of_instant {d e : DateTime} (h : d.instant = e.instant) :
    timestamp (.dateTime d) = timestamp (.dateTime e) := by
  rw [timestamp, timestamp, Timestamp.render_of_instant h]

/-- What coincides is sent alike. -/
theorem encode_of_coincides (hv : k.admits v = true) (h : v.Coincides w) :
    k.encode tag v = k.encode tag w := by
  cases h with
  | same => rfl
  | clocks hoffset hinstant =>
    cases k with
    | date =>
      rw [encode, encode, timestamp_of_instant hinstant]
      rfl
    | _ => cases hv

end FieldKind

namespace Configuration

variable {c c' : Configuration}

/-- Well-typed configurations are equal exactly if their fields coincide. -/
theorem equal_iff_coincides (hc : c.WellTyped) (hc' : c'.WellTyped) :
    c.equal c' = true ↔ ∀ f, (c.get f).Coincides (c'.get f) := by
  rw [equal, List.all_eq_true]
  simp only [Field.mem_all, true_implies, FieldKind.equal_iff_coincides (hc _) (hc' _)]

/-- Equal configurations have the same members, or the same fault. -/
theorem toMembers_of_equal (hc : c.WellTyped) (hc' : c'.WellTyped) (h : c.equal c' = true) :
    c.toMembers = c'.toMembers :=
  membersOf_congr fun f _ =>
    FieldKind.encode_of_coincides (hc f) ((equal_iff_coincides hc hc').mp h f)

/-- Equal configurations are encoded alike, or they have the same fault. -/
theorem encodeRequest_of_equal (hc : c.WellTyped) (hc' : c'.WellTyped) (h : c.equal c' = true)
    (d : Dialect) (stream : Value) : c.encodeRequest d stream = c'.encodeRequest d stream := by
  rw [encodeRequest, encodeRequest, toMembers_of_equal hc hc' h]

/-- A configuration is encoded as it is with its start told in UTC. -/
theorem encodeRequest_inUtc (hc : c.WellTyped) (d : Dialect) (stream : Value) :
    c.inUtc.encodeRequest d stream = c.encodeRequest d stream := by
  rw [encodeRequest, encodeRequest, toMembers_inUtc hc]

/-- **Canonical requests.** Configurations that are well typed and equal are encoded to one text, or the
same fault keeps both from being encoded, whatever the stream is. And a text to which a well-typed
configuration without surrogates is encoded is read by either dialect as a configuration that is encoded
to that very text. -/
theorem encodeRequest_canonical (d : Dialect) :
    (∀ c c' : Configuration, c.WellTyped → c'.WellTyped → c.equal c' = true →
      ∀ stream : Value, c.encodeRequest d stream = c'.encodeRequest d stream) ∧
    ∀ (d' : Dialect) (c : Configuration) (s t : Text), c.WellTyped → c.IsScalar → s.IsScalar →
      c.encodeRequest d (.text s) = .ok t → ∃ c', (decodeResponse d' (.text t)).result = .ok c' ∧
        c'.encodeRequest d (.text s) = .ok t := by
  constructor
  · intro c c' hc hc' h stream
    exact encodeRequest_of_equal hc hc' h d stream
  · intro d' c s t hc hs hstream ht
    obtain ⟨ms, hms, hnot⟩ := isNotation_encodeRequest hc hs hstream ht
    obtain ⟨hload, -⟩ := Document.load_of_isNotation hnot d'
    have hconfig := get_request_configuration (.text s) ms
    refine ⟨c.inUtc, ?_, (encodeRequest_inUtc hc d _).trans ht⟩
    rw [decodeResponse_eq_ofMembers hload hconfig, ofMembers_toMembers hc hms]

/-- A start at a quarter past midnight on a clock half an hour and one microsecond east of UTC. -/
def pastMidnight : Configuration where
  startTime := .dateTime ⟨⟨2024, 5, 21, by decide, by decide, by decide, by decide, by decide, by decide⟩,
    ⟨900000000, by decide⟩, some ⟨1800000001, by decide, by decide⟩⟩

/-- Each of its fields holds a value that its kind admits. -/
theorem wellTyped_pastMidnight : pastMidnight.WellTyped := by
  intro f
  cases f <;> rfl

/-- The same instant in UTC, where it is still the day before. -/
def beforeMidnight : Configuration where
  startTime := .dateTime ⟨⟨2024, 5, 20, by decide, by decide, by decide, by decide, by decide, by decide⟩,
    ⟨85499999999, by decide⟩, some .zero⟩

/-- Each of its fields holds a value that its kind admits as well. -/
theorem wellTyped_beforeMidnight : beforeMidnight.WellTyped := by
  intro f
  cases f <;> rfl

/-- Both are encoded to one text, and what is read from it is encoded to it again. -/
theorem encodeRequest_canonical_midnight : pastMidnight.equal beforeMidnight = true ∧ ∃ t c',
    pastMidnight.encodeRequest .strict (.text "ORDERS") = .ok t ∧
      beforeMidnight.encodeRequest .strict (.text "ORDERS") = .ok t ∧
      (decodeResponse .lenient (.text t)).result = .ok c' ∧
      c'.encodeRequest .strict (.text "ORDERS") = .ok t := by
  have hs : pastMidnight.IsScalar := by
    intro f t ht
    cases f <;> cases ht
  have hequal : pastMidnight.equal beforeMidnight = true := by decide +kernel
  have hok : (pastMidnight.encodeRequest .strict (.text "ORDERS")).isOk = true := by decide +kernel
  obtain ⟨t, ht⟩ := Except.isOk_iff.mp hok
  obtain ⟨halike, hcanonical⟩ := encodeRequest_canonical .strict
  obtain ⟨c', hread, hagain⟩ := hcanonical .lenient _ _ t wellTyped_pastMidnight hs (by decide) ht
  have hbefore := halike _ _ wellTyped_pastMidnight wellTyped_beforeMidnight hequal (.text "ORDERS")
  exact ⟨hequal, t, c', ht, hbefore.symm.trans ht, hread, hagain⟩

end Configuration

end StreamConsumer
