import StreamConsumer.Proofs.Document.Decoding
import StreamConsumer.Proofs.Json.Leniency
import StreamConsumer.Proofs.Json.RoundTrip

/-!
# One document, two dialects and two sources

A document of the strict dialect is a document of the lenient one, with the same members but for
integers beyond 64 bits (`Document.load_follows`); no field takes what differs, so that all fields are
read from it alike (`Document.read_of_narrowed`). A document given as a text is the same one given as
the UTF-8 of that text (`Document.load_encode`).

The lenient dialect guesses the encoding of bytes from their start. It guesses right because a document
is an object: its first two code points are blanks, a brace or a quotation mark, `start_of_read`.
-/

namespace StreamConsumer

open StreamConsumer.Except (Follows)

namespace Json

variable {d : Dialect} {s rest : Text} {ms : Members}

/-! ### How an object starts -/

/-- No constant and no number is an object. -/
theorem ne_dict_of_readScalar {v : Value} (h : readScalar d s = .ok (v, rest)) : v ≠ .dict ms := by
  rintro rfl
  unfold readScalar at h
  split at h
  · rename_i hconstant
    obtain rfl := Except.ok.inj h
    obtain hv | ⟨-, hv⟩ := constant?_mem hconstant <;> simp at hv
  · split at h
    · cases h
    · obtain ⟨v, hv, h⟩ := Except.bind_eq_ok_iff.mp h
      obtain ⟨rfl, -⟩ := Prod.mk.inj (Except.ok.inj h)
      obtain ⟨i, hi, -⟩ | ⟨x, hx⟩ := numeralValue_eq_ok hv
      · cases hi
      · cases eq_float_of_finiteValue hx

/-- Members start with a quotation mark. -/
theorem eq_of_readMembers {fuel depth : Nat} {c : CodePoint} {ns : List (Value × Value)}
    (h : readMembers d fuel depth (c :: s) = .ok (ns, rest)) : c = 0x22 := by
  cases fuel with
  | zero => cases h
  | succ fuel =>
    rw [readMembers] at h
    split at h
    · assumption
    · cases h

/-- An object starts with a brace; the other brace or a quotation mark is next. -/
theorem exists_start_of_readValue {fuel depth : Nat}
    (h : readValue d fuel depth s = .ok (.dict ms, rest)) :
    ∃ u c r, s = 0x7B :: u ∧ skipBlank u = c :: r ∧ (c = 0x7D ∨ c = 0x22) := by
  cases fuel with
  | zero => cases h
  | succ fuel =>
    cases s with
    | nil => cases h
    | cons b u =>
      rw [readValue] at h
      split at h
      · obtain ⟨⟨t, r⟩, -, h⟩ := Except.bind_eq_ok_iff.mp h
        cases h
      split at h
      · split at h
        · split at h
          · cases h
          · split at h
            · cases h
            · obtain ⟨⟨items, r⟩, -, h⟩ := Except.bind_eq_ok_iff.mp h
              cases h
        · cases h
      split at h
      · rename_i hb
        split at h
        · split at h
          · cases h
          · rename_i c r hu
            split at h
            · rename_i hc
              exact ⟨u, c, r, hb ▸ rfl, hu, .inl hc⟩
            · obtain ⟨⟨ns, r'⟩, hns, -⟩ := Except.bind_eq_ok_iff.mp h
              exact ⟨u, c, r, hb ▸ rfl, hu, .inr (eq_of_readMembers hns)⟩
        · cases h
      · exact absurd rfl (ne_dict_of_readScalar h)

/-- What is no blank and does not come first after the blanks does not come first at all. -/
theorem head?_ne_of_skipBlank {k c : CodePoint} {u : Text} (hk : isBlank k = false)
    (h : skipBlank s = c :: u) (hc : c ≠ k) : s.head? ≠ some k := by
  intro hs
  obtain ⟨r, rfl⟩ := List.head?_eq_some_iff.mp hs
  rw [skipBlank_cons hk] at h
  exact hc (List.cons.inj h).1.symm

/-- A document neither starts with a byte order mark nor has a zero in the first two places. -/
theorem start_of_read (h : Json.read d s = .ok (.dict ms)) :
    s.head? ≠ some 0xFEFF ∧ (0 : CodePoint) ∉ s.take 2 := by
  obtain ⟨⟨v, rest⟩, hv, h⟩ := Except.bind_eq_ok_iff.mp h
  simp only at h
  split at h
  · obtain rfl := Except.ok.inj h
    obtain ⟨u, c, r, hs, hu, hc⟩ := exists_start_of_readValue hv
    refine ⟨head?_ne_of_skipBlank (by decide) hs (by decide), ?_⟩
    have hfirst : s.head? ≠ some 0 := head?_ne_of_skipBlank (by decide) hs (by decide)
    rcases s with _ | ⟨a, _ | ⟨b, s⟩⟩
    · simp
    · simpa [eq_comm] using hfirst
    · -- The second place comes after a blank or after the brace.
      have hsecond : (b :: s).head? ≠ some 0 := by
        by_cases ha : isBlank a = true
        · rw [skipBlank, List.dropWhile_cons_of_pos ha] at hs
          exact head?_ne_of_skipBlank (by decide) hs (by decide)
        · rw [skipBlank_cons (Bool.eq_false_iff.mpr ha)] at hs
          obtain ⟨-, rfl⟩ := List.cons.inj hs
          refine head?_ne_of_skipBlank (by decide) hu ?_
          rcases hc with rfl | rfl <;> decide
      simpa [eq_comm] using And.intro hfirst hsecond
  · cases h

/-! ### Sources -/

/-- What the strict dialect takes for a document has a text that it reads. The lenient one finds the same
text and reads that, unless the document is a window on bytes. -/
theorem readSource_strict {source : Value} (hsource : ∀ s, source ≠ .bytes .view s)
    (h : readSource .strict source = .ok (.dict ms)) :
    ∃ t, Json.read .strict t = .ok (.dict ms) ∧ readSource .lenient source = Json.read .lenient t := by
  cases source with
  | text t =>
    rw [readSource] at h
    split at h
    · exact ⟨t, h, if_neg (start_of_read h).1⟩
    · cases h
  | bytes kind s =>
    obtain ⟨t, ht, h⟩ := Except.bind_eq_ok_iff.mp h
    rw [sourceText] at ht
    split at ht
    · rename_i t' hdecode
      rw [← Except.ok.inj ht] at h
      obtain ⟨hmark, hzero⟩ := start_of_read h
      have hlenient : sourceText .lenient s = .ok t' := by
        rw [sourceText, Encoding.decode_of_utf8 (Utf8.decode_of_refusing hdecode) hmark hzero]
      refine ⟨t', h, ?_⟩
      cases kind with
      | view => exact absurd rfl (hsource s)
      | fixed => exact congrArg (· >>= Json.read .lenient) hlenient
      | growing => exact congrArg (· >>= Json.read .lenient) hlenient
    · cases ht
  | _ => cases h

/-- A text that is taken for a document is read. -/
theorem read_of_readSource_text {t : Text} (h : readSource d (.text t) = .ok (.dict ms)) :
    Json.read d t = .ok (.dict ms) := by
  cases d with
  | strict =>
    rw [readSource] at h
    split at h
    · exact h
    · cases h
  | lenient =>
    change (if t.head? = some 0xFEFF then _ else _) = _ at h
    split at h
    · cases h
    · exact h

end Json

namespace FieldKind

/-- No field takes what narrowing changes. -/
theorem decode_of_narrowed {k : FieldKind} {tag : Text} {v w : Value}
    (h : k.decode tag v.narrowed = .ok w) : k.decode tag v = .ok w := by
  obtain hv | ⟨i, x, -, hv⟩ | ⟨vs, -, hv⟩ | ⟨ms, -, hv⟩ := v.narrowed_cases <;> rw [hv] at h
  · exact h
  -- Of a number that is no integer, a list or a dictionary, no kind of field makes anything.
  all_goals cases k <;> cases h

end FieldKind

namespace Document

variable {d : Dialect} {ms : Members}

/-- A document is loaded exactly if its source is read as a dictionary. -/
theorem load_eq_ok_iff {source : Value} :
    load d source = .ok ms ↔ Json.readSource d source = .ok (.dict ms) := by
  constructor
  · intro h
    unfold load at h
    split at h
    · cases h
    · rename_i hread
      rw [hread, Except.ok.inj h]
    · cases h
  · intro h
    rw [load, h]

/-- **One document, two dialects.** The lenient dialect loads what the strict one does, except for
windows on bytes. -/
theorem load_follows {source : Value} (hsource : ∀ s, source ≠ .bytes .view s) :
    Follows (Members.mapValues Value.narrowed) (load .strict source) (load .lenient source) := by
  intro ms h
  obtain ⟨t, ht, hlenient⟩ := Json.readSource_strict hsource (load_eq_ok_iff.mp h)
  obtain ⟨v, hv, hnarrowed⟩ := Json.read_follows t _ ht
  obtain ⟨ns, rfl, hns⟩ := Value.narrowed_eq_dict hnarrowed
  exact ⟨ns, load_eq_ok_iff.mpr (hlenient.trans hv), hns⟩

/-- **One document, two sources.** A document that is loaded from a text is loaded from its UTF-8. -/
theorem load_encode {t : Text} (ht : t.IsScalar) (h : load d (.text t) = .ok ms) :
    load d (.bytes .fixed (Utf8.encode t)) = .ok ms := by
  have hread := Json.read_of_readSource_text (load_eq_ok_iff.mp h)
  obtain ⟨hmark, hzero⟩ := Json.start_of_read hread
  rw [load_eq_ok_iff, Json.readSource_bytes_fixed, Json.sourceText_encode d ht hmark hzero]
  exact hread

/-- What is read from a field of a narrowed document is read from it before. -/
theorem read_of_narrowed {tag : Text} {k : FieldKind} {o : Option Value}
    (h : read (ms.mapValues Value.narrowed) tag k = .ok o) : read ms tag k = .ok o := by
  unfold read at h ⊢
  rw [Members.get_mapValues _ rfl] at h
  simp only [Value.isNull_narrowed] at h ⊢
  split at h
  · rename_i hnull
    rw [if_pos hnull]
    exact h
  · rename_i hnull
    obtain ⟨w, hw, ho⟩ := Except.map_eq_ok_iff.mp h
    rw [if_neg hnull, FieldKind.decode_of_narrowed hw]
    exact congrArg Except.ok ho

end Document

end StreamConsumer
