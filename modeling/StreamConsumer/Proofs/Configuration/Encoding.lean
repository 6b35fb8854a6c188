import Mathlib.Data.List.Nodup
import StreamConsumer.Configuration.Wire
import StreamConsumer.Proofs.Document.Codec

/-!
# What a configuration sends

A configuration is well typed if every field holds a value that its kind admits. Each field sends
something or nothing, `Configuration.sent`; the members under which a configuration travels are what
its fields send, in order, if none of them has a fault (`membersOf_eq_ok_iff`), and otherwise the
fault is the first one (`membersOf_eq_error_iff`). The members are under different tags, so each field
is found there again, `get_membersFrom`.
-/

namespace StreamConsumer

namespace Configuration

/-- Every field holds a value that its kind admits. -/
def WellTyped (c : Configuration) : Prop := ∀ f : Field, f.kind.admits (c.get f) = true

/-- No field holds a text with surrogates. -/
def IsScalar (c : Configuration) : Prop := ∀ f : Field, (c.get f).IsScalar

/-- Every default is one that its kind admits. -/
theorem wellTyped_standard : standard.WellTyped := by
  intro f
  cases f <;> rfl

/-- No default has surrogates. -/
theorem isScalar_standard : standard.IsScalar := by
  intro f t ht
  cases f <;> cases ht

/-! ### Members by tag -/

/-- The members of the fields of a list for which there is something to send. -/
def membersFrom (w : Field → Option Value) (fs : List Field) : Members :=
  fs.filterMap fun f => (w f).map fun v => (.text f.tag, v)

variable {w : Field → Option Value} {fs : List Field}

/-- The members are those of the fields that send something. -/
theorem mem_membersFrom {m : Value × Value} :
    m ∈ membersFrom w fs ↔ ∃ f ∈ fs, ∃ v, w f = some v ∧ (.text f.tag, v) = m := by
  simp [membersFrom, List.mem_filterMap]

/-- A field that sends nothing has no member. -/
theorem membersFrom_cons_none {f : Field} (h : w f = none) :
    membersFrom w (f :: fs) = membersFrom w fs := by
  rw [membersFrom, List.filterMap_cons_none (by rw [h]; rfl)]
  rfl

/-- A field that sends something has its member first. -/
theorem membersFrom_cons_some {f : Field} {v : Value} (h : w f = some v) :
    membersFrom w (f :: fs) = (.text f.tag, v) :: membersFrom w fs := by
  rw [membersFrom, List.filterMap_cons_some (by rw [h]; rfl)]
  rfl

/-- Under a tag stands what its field sends, if the field is one of the list. -/
theorem get?_membersFrom (w : Field → Option Value) (fs : List Field) (f : Field) :
    (membersFrom w fs).get? (.text f.tag) = if f ∈ fs then w f else none := by
  induction fs with
  | nil => rfl
  | cons g fs ih =>
    by_cases hgf : f = g
    · subst hgf
      rw [if_pos List.mem_cons_self]
      rcases hw : w f with _ | v
      · rw [membersFrom_cons_none hw, ih, hw]
        exact ite_self _
      · rw [membersFrom_cons_some hw, Members.get?_cons, if_pos rfl]
    · have hmem : f ∈ g :: fs ↔ f ∈ fs := by simp [hgf]
      simp only [hmem]
      rcases hw : w g with _ | v
      · rw [membersFrom_cons_none hw, ih]
      · rw [membersFrom_cons_some hw, Members.get?_cons,
          if_neg fun h => hgf (Field.tag_injective h).symm, ih]

/-- Under a tag stands what its field sends, and null where it sends nothing. -/
theorem get_membersFrom (w : Field → Option Value) (fs : List Field) (f : Field) :
    (membersFrom w fs).get f.tag = if f ∈ fs then (w f).getD .null else .null := by
  rw [Members.get, get?_membersFrom]
  split
  · rfl
  · rfl

/-- Different fields send under different tags. -/
theorem nodup_keys_membersFrom (h : fs.Nodup) : ((membersFrom w fs).map Prod.fst).Nodup := by
  induction fs with
  | nil => exact List.nodup_nil
  | cons g fs ih =>
    obtain ⟨hg, hfs⟩ := List.nodup_cons.mp h
    rcases hw : w g with _ | v
    · rw [membersFrom_cons_none hw]
      exact ih hfs
    · rw [membersFrom_cons_some hw, List.map_cons, List.nodup_cons]
      refine ⟨?_, ih hfs⟩
      intro hm
      obtain ⟨m, hm, hkey⟩ := List.mem_map.mp hm
      obtain ⟨f, hf, v', -, rfl⟩ := mem_membersFrom.mp hm
      exact hg (Field.tag_injective (Value.text.inj hkey) ▸ hf)

/-! ### The members of a configuration -/

/-- What the wire carries for a field, if anything. -/
def sent (c : Configuration) (f : Field) : Option Value :=
  (f.kind.encode f.tag (c.get f)).toOption.join

/-- What is sent for a field is what it was encoded as. -/
theorem sent_eq {c : Configuration} {f : Field} {o : Option Value}
    (h : f.kind.encode f.tag (c.get f) = .ok o) : c.sent f = o := by
  rw [sent, h]
  rfl

variable {c : Configuration}

/-- The members depend on what is sent alone. -/
theorem membersOf_congr {c' : Configuration}
    (h : ∀ f ∈ fs, f.kind.encode f.tag (c'.get f) = f.kind.encode f.tag (c.get f)) :
    c'.membersOf fs = c.membersOf fs := by
  induction fs with
  | nil => rfl
  | cons f fs ih =>
    rw [membersOf, membersOf, member, member, h f List.mem_cons_self,
      ih fun g hg => h g (List.mem_cons_of_mem _ hg)]

/-- The members of a list of fields are what these send, if all of them can be sent. -/
theorem membersOf_eq_ok_iff {ms : Members} : c.membersOf fs = .ok ms ↔
    (∀ f ∈ fs, ∃ o, f.kind.encode f.tag (c.get f) = .ok o) ∧ ms = membersFrom c.sent fs := by
  induction fs generalizing ms with
  | nil => simp [membersOf, membersFrom, eq_comm]
  | cons f fs ih =>
    rw [membersOf, Except.bind_eq_ok_iff]
    simp only [Except.bind_eq_ok_iff, member, Except.map_eq_ok_iff, ih, List.forall_mem_cons]
    constructor
    · rintro ⟨_, ⟨o, ho, rfl⟩, _, ⟨hfs, rfl⟩, h⟩
      obtain rfl := Except.ok.inj h
      refine ⟨⟨⟨o, ho⟩, hfs⟩, ?_⟩
      rcases o with _ | v
      · rw [membersFrom_cons_none (sent_eq ho)]
        rfl
      · rw [membersFrom_cons_some (sent_eq ho)]
        rfl
    · rintro ⟨⟨⟨o, ho⟩, hfs⟩, rfl⟩
      refine ⟨_, ⟨o, ho, rfl⟩, _, ⟨hfs, rfl⟩, congrArg Except.ok ?_⟩
      rcases o with _ | v
      · rw [membersFrom_cons_none (sent_eq ho)]
        rfl
      · rw [membersFrom_cons_some (sent_eq ho)]
        rfl

/-- The fault of a list of fields is the first one. -/
theorem membersOf_eq_error_iff {e : Fault} : c.membersOf fs = .error e ↔
    ∃ f, IsFirstFault (fun f => f.kind.encode f.tag (c.get f)) fs f e := by
  induction fs with
  | nil =>
    constructor
    · intro h
      cases h
    · rintro ⟨_, h⟩
      cases h
  | cons f fs ih =>
    rw [membersOf, Except.bind_eq_error_iff]
    simp only [Except.bind_eq_error_iff, member, Except.map_eq_ok_iff, Except.map_eq_error_iff, ih]
    constructor
    · rintro (h | ⟨_, ⟨o, ho, -⟩, ⟨g, hg⟩ | ⟨_, -, h⟩⟩)
      · exact ⟨f, .here h⟩
      · exact ⟨g, .there ho hg⟩
      · cases h
    · rintro ⟨g, h | ⟨ho, hg⟩⟩
      · exact .inl h
      · exact .inr ⟨_, ⟨_, ho, rfl⟩, .inl ⟨g, hg⟩⟩

/-- Under the tag of a field stands what is sent for it. -/
theorem encode_eq_get?_of_toMembers {ms : Members} (h : c.toMembers = .ok ms) (f : Field) :
    f.kind.encode f.tag (c.get f) = .ok (ms.get? (.text f.tag)) := by
  obtain ⟨hall, rfl⟩ := membersOf_eq_ok_iff.mp h
  obtain ⟨o, ho⟩ := hall f (Field.mem_wireOrder f)
  rw [get?_membersFrom, if_pos (Field.mem_wireOrder f), sent_eq ho, ho]

/-- A configuration with members is encoded as the request with these is written. -/
theorem encodeRequest_of_toMembers {d : Dialect} {ms : Members} (hms : c.toMembers = .ok ms)
    (stream : Value) : c.encodeRequest d stream =
      (Json.write d .compact (request stream ms)).mapError refusal := by
  rw [encodeRequest, hms]
  rfl

/-- A configuration without members is refused with their fault, whatever the dialect and the stream. -/
theorem encodeRequest_of_toMembers_eq_error {e : Fault} (h : c.toMembers = .error e) (d : Dialect)
    (stream : Value) : c.encodeRequest d stream = .error e := by
  rw [encodeRequest, h]
  rfl

/-- No field is written twice. -/
theorem nodup_wireOrder : Field.wireOrder.Nodup := by decide

/-- All keys under which a configuration travels are tags. -/
theorem unknownKeys_membersFrom : unknownKeys (membersFrom w fs) = [] := by
  rw [unknownKeys, List.filter_eq_nil_iff]
  intro k hk
  obtain ⟨m, hm, rfl⟩ := List.mem_map.mp hk
  obtain ⟨f, -, v, -, rfl⟩ := mem_membersFrom.mp hm
  have htag : Field.isTag (.text f.tag) = true :=
    List.any_eq_true.mpr ⟨f, Field.mem_all f, by rw [Value.equal_text_text]; exact decide_eq_true rfl⟩
  simp [htag]

/-- The tags of fields have no surrogates. -/
theorem isScalar_tag (f : Field) : f.tag.IsScalar := by cases f <;> decide

end Configuration

end StreamConsumer
