import StreamConsumer.Proofs.Configuration.Decoding
import StreamConsumer.Proofs.Configuration.Encoding
import StreamConsumer.Proofs.Text.Quoted

/-!
# What reading a configuration passes over

Only what stands under the thirteen tags counts when a configuration is read, and there null counts as
nothing. Two dictionaries that agree on the tags, `Members.AgreeOn`, therefore come to the same
configuration or to the same fault, in whatever order their members stand and whatever else they hold.

**Main statement** (`ofMembers_agree`): all else shows in the record alone, which lists the keys that
are no tags, in order, whether or not there is a fault. The list is spelled out here, quoted key by quoted
key, and it is one from which the keys are known. What a configuration is sent as has no such keys.
-/

namespace StreamConsumer

namespace Members

variable {ms ms' : Members} {key : Text}

/-- Two dictionaries agree on a key: the same stands there in both, or nothing in either. -/
def AgreeOn (ms ms' : Members) (key : Text) : Prop :=
  ms.get? (.text key) = ms'.get? (.text key) ∨ ms.Lacks key ∧ ms'.Lacks key

/-- What is found under a key on which dictionaries agree is the same. -/
theorem get_eq_of_agreeOn (h : ms.AgreeOn ms' key) : ms.get key = ms'.get key := by
  obtain h | ⟨hms, hms'⟩ := h
  · rw [get, get, h]
  · rw [lacks_iff.mp hms, lacks_iff.mp hms']

end Members

/-- A text is the tag of a field or of none. -/
theorem Field.isTag_text (key : Text) :
    isTag (.text key) = (Field.all.map Field.tag).contains key := by
  rw [Bool.eq_iff_iff, List.contains_iff_mem, isTag, List.any_eq_true, List.mem_map]
  simp only [Value.equal_text_text, decide_eq_true_eq]
  exact exists_congr fun f => and_congr_right fun _ => eq_comm

namespace Configuration

variable {ms ms' : Members} {c : Configuration} {fs : List Field} {keys : List Text}

/-- Fields are read from what stands under their tags. -/
theorem readFields_congr (h : ∀ f ∈ fs, ms.get f.tag = ms'.get f.tag) :
    readFields ms c fs = readFields ms' c fs := by
  induction fs generalizing c with
  | nil => rfl
  | cons f fs ih =>
    have hread : Document.read ms f.tag f.kind = Document.read ms' f.tag f.kind := by
      rw [Document.read, Document.read, h f List.mem_cons_self]
    rw [readFields_cons, readFields_cons, hread]
    refine congrArg (Document.read ms' f.tag f.kind >>= ·) (funext fun o => ?_)
    exact ih fun g hg => h g (List.mem_cons_of_mem f hg)

/-! ### The record -/

/-- The texts that are no tags, in order. -/
def untagged (keys : List Text) : List Text := keys.filter (!(Field.all.map Field.tag).contains ·)

/-- All texts are tags if there are none that are not. -/
theorem untagged_eq_nil_iff : untagged keys = [] ↔ ∀ key ∈ keys, key ∈ Field.all.map Field.tag := by
  rw [untagged, List.filter_eq_nil_iff]
  refine forall₂_congr fun key _ => ?_
  rw [Bool.not_eq_true, Bool.not_eq_false', List.contains_iff_mem]

/-- The keys that are no tags are told by comparing texts. -/
theorem unknownKeys_eq (h : ms.map Prod.fst = keys.map .text) :
    unknownKeys ms = (untagged keys).map .text := by
  rw [unknownKeys, h, List.filter_map, untagged]
  refine congrArg (List.map Value.text) (List.filter_congr fun key _ => ?_)
  rw [Function.comp_apply, Field.isTag_text]

/-- Texts in a list are shown one by one, each between quotes. -/
theorem literals_map_text (keys : List Text) :
    Value.literals (keys.map .text) = keys.map Quoted.ofText := by
  induction keys with
  | nil => rfl
  | cons key keys ih =>
    rw [List.map_cons, List.map_cons, Value.literals, Value.literal, ih]

/-- A record about keys names them all, in order. -/
theorem unknownRecord_eq (keys : List Text) : unknownRecord (keys.map .text) =
    ⟨.configuration, "ignoring unknown consumer config fields: " ++
      ("[" ++ List.intercalate (Text.ofString ", ") (keys.map Quoted.ofText) ++ "]")⟩ := by
  rw [unknownRecord, Value.literal, literals_map_text, Text.joined_eq_intercalate]

/-- Records about the same keys alone are the same. -/
theorem unknownRecord_inj {keys keys' : List Text}
    (h : unknownRecord (keys.map .text) = unknownRecord (keys'.map .text)) : keys = keys' := by
  rw [unknownRecord_eq, unknownRecord_eq] at h
  have hlisted := List.append_cancel_left (congrArg LogRecord.text h)
  rw [List.append_assoc, List.append_assoc] at hlisted
  exact Quoted.intercalate_ofText_inj (List.append_cancel_left hlisted)

/-- There is one record about all keys that are no tags, or none where all are. -/
theorem records_ofMembers (h : ms.map Prod.fst = keys.map .text) : (ofMembers ms).records =
    if untagged keys = [] then [] else [unknownRecord ((untagged keys).map .text)] := by
  rw [ofMembers, unknownKeys_eq h]
  simp only [List.isEmpty_iff, List.map_eq_nil_iff]

/-- From the records the keys that are no tags are known. -/
theorem untagged_eq_of_records {keys' : List Text} (h : ms.map Prod.fst = keys.map .text)
    (h' : ms'.map Prod.fst = keys'.map .text)
    (hrecords : (ofMembers ms).records = (ofMembers ms').records) : untagged keys = untagged keys' := by
  rw [records_ofMembers h, records_ofMembers h'] at hrecords
  split at hrecords <;> split at hrecords
  · rename_i hnil hnil'
    rw [hnil, hnil']
  · cases hrecords
  · cases hrecords
  · exact unknownRecord_inj (List.cons.inj hrecords).1

/-- **What counts and what is recorded.** Dictionaries that agree on all tags come to the same
configuration or to the same fault. A dictionary with texts for keys leaves no record if all of them
are tags, and otherwise one that lists those that are none in their order, each of them quoted; so it
does also where it comes to a fault. Only dictionaries with the same such keys in the same order leave
the same records. What any configuration is sent as leaves none. -/
theorem ofMembers_agree :
    (∀ ms ms' : Members, (∀ f : Field, ms.AgreeOn ms' f.tag) →
      (ofMembers ms).result = (ofMembers ms').result) ∧
    (∀ (ms : Members) (keys : List Text), ms.map Prod.fst = keys.map .text →
      ((∀ key ∈ keys, key ∈ Field.all.map Field.tag) → (ofMembers ms).records = []) ∧
      ((∃ key ∈ keys, key ∉ Field.all.map Field.tag) → (ofMembers ms).records =
        [⟨.configuration, "ignoring unknown consumer config fields: " ++
          ("[" ++ List.intercalate (Text.ofString ", ") ((untagged keys).map Quoted.ofText) ++
            "]")⟩])) ∧
    (∀ (ms ms' : Members) (keys keys' : List Text),
      ms.map Prod.fst = keys.map .text → ms'.map Prod.fst = keys'.map .text →
      (ofMembers ms).records = (ofMembers ms').records → untagged keys = untagged keys') ∧
    ∀ (c : Configuration) (ms : Members), c.toMembers = .ok ms → (ofMembers ms).records = [] := by
  refine ⟨?_, ?_, ?_, ?_⟩
  · intro ms ms' h
    exact readFields_congr fun f _ => Members.get_eq_of_agreeOn (h f)
  · intro ms keys h
    rw [records_ofMembers h]
    constructor
    · intro hall
      exact if_pos (untagged_eq_nil_iff.mpr hall)
    · rintro ⟨key, hkey, htag⟩
      rw [if_neg fun hnil => htag (untagged_eq_nil_iff.mp hnil key hkey), unknownRecord_eq]
  · intro ms ms' keys keys' h h'
    exact untagged_eq_of_records h h'
  · intro c ms h
    obtain ⟨-, rfl⟩ := membersOf_eq_ok_iff.mp h
    rw [ofMembers, unknownKeys_membersFrom]
    rfl

/-- A wait that is a text between a name that is null and a member that no field knows. -/
def chatty : Members :=
  [(.text "durable_name", .null), (.text "ack_wait", .text "soon"), (.text "num_replicas", .int 3)]

/-- The wait alone. -/
def terse : Members := [(.text "ack_wait", .text "soon")]

/-- Both come to the same fault, and what no field knows is recorded although there is one. -/
theorem ofMembers_agree_chatty : ∃ e, (ofMembers chatty).result = .error e ∧
    (ofMembers terse).result = .error e ∧ (ofMembers terse).records = [] ∧
    (ofMembers chatty).records =
      [⟨.configuration, "ignoring unknown consumer config fields: ['num_replicas']"⟩] ∧
    ∃ ms, standard.toMembers = .ok ms ∧ (ofMembers ms).records = [] := by
  obtain ⟨hresult, hrecords, -, hsent⟩ := ofMembers_agree
  have hagree (f : Field) : chatty.AgreeOn terse f.tag := by
    have hunknown : Text.ofString "num_replicas" ≠ f.tag := by cases f <;> decide
    by_cases hname : Text.ofString "durable_name" = f.tag
    · rw [← hname]
      exact .inr ⟨.inr rfl, .inl rfl⟩
    · left
      simp only [chatty, terse, Members.get?_cons, if_neg hname, if_neg hunknown]
  have hterse := (hrecords terse ["ack_wait"] rfl).1 (by decide)
  have hchatty := (hrecords chatty ["durable_name", "ack_wait", "num_replicas"] rfl).2 (by decide)
  have hlisted : untagged ["durable_name", "ack_wait", "num_replicas"] =
      [Text.ofString "num_replicas"] := by decide
  have hspelled : Text.ofString "ignoring unknown consumer config fields: " ++ ("[" ++
      List.intercalate (Text.ofString ", ") ([Text.ofString "num_replicas"].map Quoted.ofText) ++
        "]") =
      Text.ofString "ignoring unknown consumer config fields: ['num_replicas']" := by decide +kernel
  rw [hlisted, hspelled] at hchatty
  have hfails : (ofMembers terse).result.isOk = false := by decide +kernel
  have hstandard : standard.toMembers.isOk = true := by decide +kernel
  obtain ⟨ms, hms⟩ := Except.isOk_iff.mp hstandard
  rcases he : (ofMembers terse).result with e | c
  · exact ⟨e, (hresult _ _ hagree).trans he, rfl, hterse, hchatty, ms, hms, hsent _ _ hms⟩
  · rw [he] at hfails
    cases hfails

end Configuration

end StreamConsumer
