import StreamConsumer.Proofs.Configuration.Acceptance
import StreamConsumer.Proofs.Configuration.Equality
import StreamConsumer.Proofs.Json.SurrogatePairs

/-!
# Different requests, different texts

What a dialect keeps it reads back, so two requests whose texts are kept have the same text only if their
streams are the same and their configurations are equal (`equal_of_encodeRequest`). The strict dialect
keeps all that it writes. The lenient one does not: a surrogate pair that is given as two code points
is written like the one code point that it stands for (`encodeRequest_joinPairs`).

**Main statement** (`encodeRequest_eq_iff`): that is the only way in which different requests come to
share a text.
-/

namespace StreamConsumer

namespace Value

/-- A clock with an offset shows the instant that it shows in UTC. -/
theorem coincides_inUtc {v : Value} (h : ∀ u, v = .dateTime u → u.offset.isSome = true) :
    v.Coincides v.inUtc := by
  cases v with
  | dateTime u =>
    rcases hz : u.toUtc with _ | z
    · rw [inUtc, hz]
      exact .same _
    · obtain ⟨hinstant, hoffset⟩ := DateTime.instant_of_ofInstant? hz
      rw [inUtc, hz]
      exact .clocks (by rw [h u rfl, hoffset]; rfl) hinstant.symm
  | _ => exact .same _

/-- Only a date becomes a date when pairs are joined. -/
theorem eq_dateTime_of_joinPairs {v : Value} {u : DateTime} (h : v.joinPairs = .dateTime u) :
    v = .dateTime u := by
  cases v with
  | text t => cases h
  | _ => exact h

/-- Only a text becomes a text when pairs are joined. -/
theorem exists_text_of_joinPairs {v : Value} {u : Text} (h : v.joinPairs = .text u) :
    ∃ t, v = .text t ∧ t.joinPairs = u := by
  cases v with
  | text t => exact ⟨t, rfl, Value.text.inj h⟩
  | _ => cases h

/-- Nothing is joined in a value whose texts are whole. -/
theorem joinPairs_of_plain {v : Value} {n : Nat} (h : v.Plain Text.IsWhole n) : v.joinPairs = v := by
  cases h with
  | text _ h => exact congrArg Value.text (Text.joinPairs_of_isWhole h)
  | _ => rfl

/-- A plain value without containers is one that the lenient dialect can read. -/
theorem isJson_of_plain_zero {v : Value} {P : Text → Prop} (h : v.Plain P 0) : v.IsJson .lenient := by
  cases h with
  | null => exact .null
  | bool _ b => exact .bool b
  | int => exact .int rfl
  | text => exact .text nofun

end Value

namespace FieldKind

variable {k : FieldKind} {tag : Text} {v : Value} {o : Option Value}

/-- A kind admits a value with its pairs joined if it admits the value. -/
theorem admits_joinPairs (hv : k.admits v = true) : k.admits v.joinPairs = true := by
  cases v with
  | text t =>
    cases k with
    | text => rfl
    | _ => cases hv
  | _ => exact hv

/-- For a value with its pairs joined, what is sent for the value is sent with its pairs joined. -/
theorem encode_joinPairs (hv : k.admits v = true) (h : k.encode tag v = .ok o) :
    k.encode tag v.joinPairs = .ok (o.map Value.joinPairs) := by
  by_cases htext : ∃ t, v = .text t
  · obtain ⟨t, rfl⟩ := htext
    cases k with
    | text =>
      obtain rfl := Except.ok.inj h
      rfl
    | _ => cases hv
  · have hno (t : Text) : v ≠ .text t := fun ht => htext ⟨t, ht⟩
    have hv' : v.joinPairs = v := by
      cases v with
      | text t => exact absurd rfl (hno t)
      | _ => rfl
    have ho : o.map Value.joinPairs = o := by
      rcases o with _ | w
      · rfl
      · have hplain := (plain_iff_of_encode (fun _ => Text.isWhole_of_isScalar) hv h 0).mpr
          fun t ht => absurd ht (hno t)
        exact congrArg some (Value.joinPairs_of_plain hplain)
    rw [hv', ho, h]

end FieldKind

namespace Configuration

variable {c c' : Configuration} {d : Dialect} {s s' t : Text} {ms : Members}

/-- There is no start, or it has an offset. -/
def StartHasOffset (c : Configuration) : Prop :=
  ∀ u, c.startTime = .dateTime u → u.offset.isSome = true

/-! ### Requests that are kept -/

/-- A dialect keeps the stream of a request and all texts of its configuration. -/
def IsKept (d : Dialect) (c : Configuration) (s : Text) : Prop :=
  d.Keeps s ∧ ∀ f u, c.get f = .text u → d.Keeps u

/-- The values of a request are such as JSON has, and no key is there twice. -/
theorem isJson_request (hc : c.WellTyped) (hms : c.toMembers = .ok ms) (s : Text) :
    (request (.text s) ms).IsJson .lenient := by
  have hplain := (plain_request_iff (P := fun _ => True) (fun _ _ => trivial) hc hms s).mpr
    ⟨trivial, fun _ _ _ => trivial⟩
  have hconfig := (Value.plain_dict_iff.mp hplain _ (.tail _ (.head _))).2
  have hkeys {m : Value × Value} (h : ∃ u, m.1 = .text u ∧ True) :
      ∃ u, m.1 = .text u ∧ Dialect.lenient.AdmitsText u := h.imp fun u hu => ⟨hu.1, nofun⟩
  have hne : Document.streamTag ≠ Document.configurationTag := by decide
  refine .dict (fun m hm => hkeys (Value.plain_dict_iff.mp hplain m hm).1) (by simp [hne]) ?_
  rw [List.forall_mem_cons, List.forall_mem_singleton]
  refine ⟨.text nofun, .dict (fun m hm => hkeys (Value.plain_dict_iff.mp hconfig m hm).1) ?_ ?_⟩
  · rw [(membersOf_eq_ok_iff.mp hms).2]
    exact nodup_keys_membersFrom nodup_wireOrder
  · exact fun m hm => Value.isJson_of_plain_zero (Value.plain_dict_iff.mp hconfig m hm).2

/-- What was encoded has members. -/
theorem exists_toMembers_of_encodeRequest (h : c.encodeRequest d (.text s) = .ok t) :
    ∃ ms, c.toMembers = .ok ms := by
  obtain ⟨ms, hms, -⟩ := Except.bind_eq_ok_iff.mp h
  exact ⟨ms, hms⟩

/-- The text of a request that the dialect keeps is read as that request. -/
theorem readsAs_encodeRequest (hc : c.WellTyped) (hkept : c.IsKept d s)
    (h : c.encodeRequest d (.text s) = .ok t) :
    ∃ ms, c.toMembers = .ok ms ∧ Json.ReadsAs d t 0 (request (.text s) ms) := by
  obtain ⟨ms, hms⟩ := exists_toMembers_of_encodeRequest h
  have hplain := (plain_request_iff (fun _ => d.keeps_of_isScalar) hc hms s).mpr hkept
  obtain ⟨u, hu, hread⟩ := Json.exists_readsAs d (s := .compact) rfl hplain (isJson_request hc hms s)
    0 (by omega)
  rw [encodeRequest_of_toMembers hms, Except.mapError_eq_ok_iff] at h
  obtain rfl := Except.ok.inj (hu.symm.trans h)
  exact ⟨ms, hms, hread⟩

/-- Configurations that come to the same with their starts told in UTC are equal, if the starts have
offsets. -/
theorem equal_of_inUtc_eq (hc : c.WellTyped) (hc' : c'.WellTyped)
    (hstart : c.StartHasOffset) (hstart' : c'.StartHasOffset) (h : c.inUtc = c'.inUtc) :
    c.equal c' = true := by
  rw [equal_iff_coincides hc hc']
  intro f
  -- Each field shows the instant that it shows in UTC, and there both are the same.
  have hget : (c.get f).inUtc = (c'.get f).inUtc := by rw [← get_inUtc hc, h, get_inUtc hc']
  have hc : (c.get f).Coincides (c.get f).inUtc := Value.coincides_inUtc fun u hu => by
    obtain rfl := eq_startTime_of_dateTime hc hu
    exact hstart u hu
  have hc' : (c'.get f).Coincides (c'.get f).inUtc := Value.coincides_inUtc fun u hu => by
    obtain rfl := eq_startTime_of_dateTime hc' hu
    exact hstart' u hu
  rw [hget] at hc
  exact hc.trans hc'.symm

/-- **What is kept is kept apart.** Requests that the dialect keeps have the same text only if they are
for the same stream and of equal configurations. -/
theorem equal_of_encodeRequest (hc : c.WellTyped) (hc' : c'.WellTyped)
    (hstart : c.StartHasOffset) (hstart' : c'.StartHasOffset)
    (hkept : c.IsKept d s) (hkept' : c'.IsKept d s') (h : c.encodeRequest d (.text s) = .ok t)
    (h' : c'.encodeRequest d (.text s') = .ok t) : s = s' ∧ c.equal c' = true := by
  obtain ⟨ms, hms, hread⟩ := readsAs_encodeRequest hc hkept h
  obtain ⟨ms', hms', hread'⟩ := readsAs_encodeRequest hc' hkept' h'
  -- One text is read in one way, so both requests are the same.
  have hrequest := Except.ok.inj (hread.read_eq.symm.trans hread'.read_eq)
  simp only [request, Value.dict.injEq, List.cons.injEq, Prod.mk.injEq, Value.text.injEq, true_and,
    and_true] at hrequest
  obtain ⟨hs, rfl⟩ := hrequest
  have hutc : c.inUtc = c'.inUtc := by
    have hof := (ofMembers_toMembers hc hms).symm.trans (ofMembers_toMembers hc' hms')
    exact Except.ok.inj (congrArg Outcome.result hof)
  exact ⟨hs, equal_of_inUtc_eq hc hc' hstart hstart' hutc⟩

/-! ### Requests with their pairs joined -/

/-- A configuration with the pairs of its texts joined. -/
def joinPairs (c : Configuration) : Configuration :=
  Field.all.foldl (fun c f => c.set f (c.get f).joinPairs) c

/-- Every field holds what it held, with pairs joined. -/
theorem get_joinPairs (c : Configuration) (f : Field) :
    c.joinPairs.get f = (c.get f).joinPairs := by
  cases f <;> rfl

/-- A well-typed configuration stays so when pairs are joined. -/
theorem wellTyped_joinPairs (hc : c.WellTyped) : c.joinPairs.WellTyped := by
  intro f
  rw [get_joinPairs]
  exact FieldKind.admits_joinPairs (hc f)

/-- Its start keeps its offset. -/
theorem startHasOffset_joinPairs (h : c.StartHasOffset) : c.joinPairs.StartHasOffset :=
  fun u hu => h u (Value.eq_dateTime_of_joinPairs ((get_joinPairs c .startTime).symm.trans hu))

/-- The lenient dialect keeps what is joined. -/
theorem isKept_joinPairs (c : Configuration) (s : Text) : c.joinPairs.IsKept .lenient s.joinPairs := by
  refine ⟨Text.isWhole_joinPairs s, fun f u hu => ?_⟩
  rw [get_joinPairs] at hu
  obtain ⟨t, -, rfl⟩ := Value.exists_text_of_joinPairs hu
  exact Text.isWhole_joinPairs t

/-- To change the values of members is to change what is sent. -/
theorem mapValues_membersFrom (g : Value → Value) (w : Field → Option Value) (fs : List Field) :
    (membersFrom w fs).mapValues g = membersFrom (fun f => (w f).map g) fs := by
  induction fs with
  | nil => rfl
  | cons f fs ih =>
    rcases hw : w f with _ | v
    · rw [membersFrom_cons_none hw, ih, membersFrom_cons_none (by rw [hw]; rfl)]
    · rw [membersFrom_cons_some hw, Members.mapValues_cons, ih,
        membersFrom_cons_some (v := g v) (by rw [hw]; rfl)]

/-- A configuration joined travels under the members of the configuration, joined. -/
theorem toMembers_joinPairs (hc : c.WellTyped) (hms : c.toMembers = .ok ms) :
    c.joinPairs.toMembers = .ok (ms.mapValues Value.joinPairs) := by
  obtain ⟨hall, rfl⟩ := membersOf_eq_ok_iff.mp hms
  have hjoined (f : Field) : f.kind.encode f.tag (c.joinPairs.get f) =
      .ok ((c.sent f).map Value.joinPairs) := by
    obtain ⟨o, ho⟩ := hall f (Field.mem_wireOrder f)
    rw [get_joinPairs, sent_eq ho]
    exact FieldKind.encode_joinPairs (hc f) ho
  have hsent : c.joinPairs.sent = fun f => (c.sent f).map Value.joinPairs :=
    funext fun f => sent_eq (hjoined f)
  refine membersOf_eq_ok_iff.mpr ⟨fun f _ => ⟨_, hjoined f⟩, ?_⟩
  rw [mapValues_membersFrom, hsent]

/-- **Pairs.** The lenient dialect encodes a request as it does the request with its pairs joined. -/
theorem encodeRequest_joinPairs (hc : c.WellTyped) (hms : c.toMembers = .ok ms) (s : Text) :
    c.joinPairs.encodeRequest .lenient (.text s.joinPairs) = c.encodeRequest .lenient (.text s) := by
  rw [encodeRequest_of_toMembers hms, encodeRequest_of_toMembers (toMembers_joinPairs hc hms)]
  refine congrArg (Except.mapError _) (Json.writeAt_dict_congr ?_)
  have hstream : Json.writeAt .lenient .compact 1 (.text s.joinPairs) =
      Json.writeAt .lenient .compact 1 (.text s) := Json.writeAt_joinPairs .compact 1 (.text s)
  have hconfig : Json.writeAt .lenient .compact 1 (.dict (ms.mapValues Value.joinPairs)) =
      Json.writeAt .lenient .compact 1 (.dict ms) :=
    Json.writeAt_dict_congr (Json.writeMembers_mapValues (Json.writeAt_joinPairs .compact 2) ms)
  simp only [Json.writeMembers, hstream, hconfig]

/-! ### Distinctness -/

/-- Requests are alike but for surrogate pairs that one of them gives as two code points. -/
def AlikeButForPairs (c : Configuration) (s : Text) (c' : Configuration) (s' : Text) : Prop :=
  s.joinPairs = s'.joinPairs ∧ c.joinPairs.equal c'.joinPairs = true

/-- The lenient dialect encodes two requests to the same text exactly if they are alike but for pairs. -/
theorem encodeRequest_lenient_eq_iff {t' : Text} (hc : c.WellTyped) (hc' : c'.WellTyped)
    (hstart : c.StartHasOffset) (hstart' : c'.StartHasOffset)
    (h : c.encodeRequest .lenient (.text s) = .ok t)
    (h' : c'.encodeRequest .lenient (.text s') = .ok t') : t = t' ↔ c.AlikeButForPairs s c' s' := by
  obtain ⟨ms, hms⟩ := exists_toMembers_of_encodeRequest h
  obtain ⟨ms', hms'⟩ := exists_toMembers_of_encodeRequest h'
  -- What is joined is kept, so it remains to compare the requests joined.
  rw [← encodeRequest_joinPairs hc hms] at h
  rw [← encodeRequest_joinPairs hc' hms'] at h'
  have hj := wellTyped_joinPairs hc
  have hj' := wellTyped_joinPairs hc'
  constructor
  · rintro rfl
    exact equal_of_encodeRequest hj hj' (startHasOffset_joinPairs hstart)
      (startHasOffset_joinPairs hstart') (isKept_joinPairs c s) (isKept_joinPairs c' s') h h'
  · rintro ⟨hs, hequal⟩
    rw [hs, encodeRequest_of_equal hj hj' hequal] at h
    exact Except.ok.inj (h.symm.trans h')

/-- The strict dialect keeps all that it encodes. -/
theorem isKept_strict (hc : c.WellTyped) (h : c.encodeRequest .strict (.text s) = .ok t) :
    c.IsKept .strict s :=
  ((exists_encodeRequest_iff hc s).mp ⟨t, h⟩).2 rfl

/-- **Distinctness.** Of two well-typed configurations without a start or with one that has an offset,
each with a stream, that a dialect both encodes, the texts are the same exactly if the streams are and
the configurations are equal, or if the dialect is the lenient one and they are alike but for surrogate
pairs. So the texts of different requests differ whenever the dialect is strict or no text of either
has a pair that is split in two. -/
theorem encodeRequest_eq_iff (d : Dialect) {c c' : Configuration} (hc : c.WellTyped)
    (hc' : c'.WellTyped) (hstart : c.StartHasOffset) (hstart' : c'.StartHasOffset)
    {s s' t t' : Text}
    (h : c.encodeRequest d (.text s) = .ok t) (h' : c'.encodeRequest d (.text s') = .ok t') :
    (t = t' ↔ s = s' ∧ c.equal c' = true ∨ d = .lenient ∧ c.AlikeButForPairs s c' s') ∧
      (d = .strict ∨ c.IsKept .lenient s ∧ c'.IsKept .lenient s' →
        (t = t' ↔ s = s' ∧ c.equal c' = true)) := by
  have hsame (hequal : s = s' ∧ c.equal c' = true) : t = t' := by
    obtain ⟨rfl, hequal⟩ := hequal
    rw [encodeRequest_of_equal hc hc' hequal] at h
    exact Except.ok.inj (h.symm.trans h')
  have hkept (hk : c.IsKept d s) (hk' : c'.IsKept d s') : t = t' ↔ s = s' ∧ c.equal c' = true := by
    refine ⟨?_, hsame⟩
    rintro rfl
    exact equal_of_encodeRequest hc hc' hstart hstart' hk hk' h h'
  cases d with
  | strict =>
    have hiff := hkept (isKept_strict hc h) (isKept_strict hc' h')
    exact ⟨hiff.trans (or_iff_left fun hd => by cases hd.1).symm, fun _ => hiff⟩
  | lenient =>
    have hiff := encodeRequest_lenient_eq_iff hc hc' hstart hstart' h h'
    refine ⟨?_, fun hk => ?_⟩
    · constructor
      · exact fun ht => .inr ⟨rfl, hiff.mp ht⟩
      · rintro (hequal | ⟨-, halike⟩)
        · exact hsame hequal
        · exact hiff.mpr halike
    · obtain ⟨hk, hk'⟩ := hk.resolve_left (by decide)
      exact hkept hk hk'

/-- The halves of a surrogate pair, each the name of a stream on its own, are kept apart. -/
theorem encodeRequest_eq_iff_halves : ∃ t t',
    standard.encodeRequest .lenient (.text [0xD83D]) = .ok t ∧
      standard.encodeRequest .lenient (.text [0xDE00]) = .ok t' ∧ t ≠ t' := by
  have hc := wellTyped_standard
  have hstart : standard.StartHasOffset := by
    intro u hu
    cases hu
  have hwhole (s : Text) (hs : s.IsWhole) : standard.IsKept .lenient s := by
    refine ⟨hs, fun f u hu => ?_⟩
    cases f <;> cases hu
  have hok : (standard.encodeRequest .lenient (.text [0xD83D])).isOk = true := by decide +kernel
  have hok' : (standard.encodeRequest .lenient (.text [0xDE00])).isOk = true := by decide +kernel
  obtain ⟨t, ht⟩ := Except.isOk_iff.mp hok
  obtain ⟨t', ht'⟩ := Except.isOk_iff.mp hok'
  obtain ⟨-, hdistinct⟩ := encodeRequest_eq_iff .lenient hc hc hstart hstart ht ht'
  refine ⟨t, t', ht, ht', fun hsame => ?_⟩
  have hiff := hdistinct (.inr ⟨hwhole _ (by decide), hwhole _ (by decide)⟩)
  exact absurd (hiff.mp hsame).1 (by decide)

/-- Side by side they name the same stream, to the lenient dialect, as the code point that they stand
for; the strict one refuses them. -/
theorem encodeRequest_splitPair : standard.WellTyped ∧ standard.startTime = .null ∧
    (∃ t, standard.encodeRequest .lenient (.text [0x1F600]) = .ok t ∧
      standard.encodeRequest .lenient (.text [0xD83D, 0xDE00]) = .ok t) ∧
    ([0x1F600] : Text) ≠ [0xD83D, 0xDE00] ∧
    (standard.encodeRequest .strict (.text [0xD83D, 0xDE00])).isOk = false := by
  have hc := wellTyped_standard
  have hok : (standard.encodeRequest .lenient (.text [0x1F600])).isOk = true := by decide +kernel
  have hrefused : (standard.encodeRequest .strict (.text [0xD83D, 0xDE00])).isOk = false := by
    decide +kernel
  obtain ⟨t, ht⟩ := Except.isOk_iff.mp hok
  obtain ⟨ms, hms⟩ := exists_toMembers_of_encodeRequest ht
  have hjoined : Text.joinPairs [0xD83D, 0xDE00] = [0x1F600] := by decide
  have hsame := encodeRequest_joinPairs hc hms [0xD83D, 0xDE00]
  rw [hjoined] at hsame
  exact ⟨hc, rfl, ⟨t, ht, hsame.symm.trans ht⟩, by decide, hrefused⟩

end Configuration

end StreamConsumer
