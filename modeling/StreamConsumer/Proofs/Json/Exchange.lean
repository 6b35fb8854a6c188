import StreamConsumer.Json.Exchange
import StreamConsumer.Proofs.Json.Arrangement

/-!
# Values handed on as text or as bytes

What one dialect hands on the other takes back, as text and as bytes. A portable value that nests at
most 254 containers has a text in every style (`exists_isNotation_styled`); its bytes are the UTF-8 of
that text, whichever of the two is made from the other. **Main statement**
(`exchanges_of_portable`): both are taken back as that value, member for member unless members were to
be put in order, and then up to their order.
-/

namespace StreamConsumer.Json

variable {d : Dialect} {sorted : Bool} {option : Option Nat} {v : Value} {t : Text}

/-! ### Text and bytes -/

/-- The bytes are those of the text. -/
theorem encodeBytes_of_writeWith (h : writeWith d sorted option v = .ok t) :
    encodeBytes d sorted option v = .ok (Utf8.encode t) := by
  rw [encodeBytes, h]
  rfl

/-- The text is found in the bytes where these come first. -/
theorem encodeText_of_writeWith (h : writeWith d sorted option v = .ok t) (ht : t.IsScalar) :
    encodeText d sorted option v = .ok t := by
  cases d with
  | strict =>
    have hdecode : Utf8.decode false (Utf8.encode t) = some t := Utf8.decode_encode (.inr ht)
    rw [encodeText, encodeBytes_of_writeWith h]
    simp only [bind, Except.bind, textOfBytes, hdecode]
  | lenient =>
    rw [encodeText, h]
    rfl

/-- What a document denotes is the value that is taken back. -/
theorem decode_of_readSource {source : Value} (h : readSource d source = .ok v) :
    decode d source = .ok v := by
  rw [decode, h]
  rfl

/-! ### Styles -/

/-- The number that asks the strict dialect for a style. -/
def optionOf (s : JsonStyle) : Nat := s.indented.toNat + 32 * s.sorted.toNat

/-- Members are put in order if a keyword or an option asks for it. -/
theorem writeWith_optionOf (keyword : Bool) (s : JsonStyle) (v : Value) :
    writeWith .strict keyword (some (optionOf s)) v =
      write .strict ⟨s.indented, keyword || s.sorted⟩ v := by
  have hbits : (optionOf s).testBit 0 = s.indented ∧ (optionOf s).testBit 5 = s.sorted := by
    obtain ⟨indented, sorted⟩ := s
    cases indented <;> cases sorted <;> decide
  rw [writeWith, hbits.1, hbits.2]

/-- A portable value has a text in every style: a notation of that value, up to the order of members
where these were put in order. -/
theorem exists_isNotation_styled (d : Dialect) (s : JsonStyle) (hv : v.Portable 254) :
    ∃ t w, write d s v = .ok t ∧ IsNotation t 0 w ∧ v.Reordered w ∧ (s.sorted = false → w = v) := by
  obtain ⟨indented, sorted⟩ := s
  cases sorted with
  | false =>
    obtain ⟨t, ht, hnot⟩ := exists_isNotation d (s := ⟨indented, false⟩) rfl hv 0 (by omega)
    exact ⟨t, v, ht, hnot, .refl v, fun _ => rfl⟩
  | true =>
    obtain ⟨t, ht, hnot⟩ := exists_isNotation d (s := ⟨indented, false⟩) rfl
      (Value.portable_arranged hv) 0 (by omega)
    refine ⟨t, v.arranged, ?_, hnot, Value.reordered_arranged hv, nofun⟩
    rw [write, writeAt_sorted d indented hv, ht]

/-! ### Both ways -/

/-- A value is handed on as text and as its UTF-8, and both are taken back by either dialect: as that
value, or, if members were to be put in order, as one that is equal up to their order. -/
def Exchanges (d : Dialect) (keyword : Bool) (option : Option Nat) (v : Value) (ordered : Bool) :
    Prop :=
  ∃ t w, encodeText d keyword option v = .ok t ∧
    encodeBytes d keyword option v = .ok (Utf8.encode t) ∧
    (∀ d', decode d' (.text t) = .ok w ∧ decode d' (.bytes .fixed (Utf8.encode t)) = .ok w) ∧
    v.Reordered w ∧ (ordered = false → w = v)

/-- Whatever is asked for by options, the style decides. -/
theorem exchanges_of_writeWith {keyword : Bool} {s : JsonStyle} (hv : v.Portable 254)
    (h : writeWith d keyword option v = write d s v) : Exchanges d keyword option v s.sorted := by
  obtain ⟨t, w, ht, hnot, hreordered, hsame⟩ := exists_isNotation_styled d s hv
  have hwritten := h.trans ht
  have hscalar : t.IsScalar := fun c hc => (hnot.sendable c hc).1
  refine ⟨t, w, encodeText_of_writeWith hwritten hscalar, encodeBytes_of_writeWith hwritten, ?_,
    hreordered, hsame⟩
  intro d'
  exact ⟨decode_of_readSource (hnot.readSource_text d'),
    decode_of_readSource (hnot.readSource_bytes d')⟩

/-- **Handing on and taking back.** A value of constants, integers of 64 bits and texts without
surrogates, in lists and in dictionaries under such texts, at most 254 deep, is handed on by either
dialect and taken back by either, as text and as bytes. So it is where the strict dialect is asked for
any style. -/
theorem exchanges_of_portable (hv : v.Portable 254) :
    (∀ d keyword, Exchanges d keyword none v keyword) ∧
    ∀ keyword s, Exchanges .strict keyword (some (optionOf s)) v (keyword || s.sorted) := by
  refine ⟨fun d keyword => ?_, fun keyword s => ?_⟩
  · have hnone : writeWith d keyword none v = write d ⟨false, keyword⟩ v := by cases d <;> rfl
    exact exchanges_of_writeWith hv hnone
  · exact exchanges_of_writeWith hv (writeWith_optionOf keyword s v)

/-- A dictionary out of order, with integers and texts at the limits of their kinds, inside `n`
lists. -/
def deep : Nat → Value
  | 0 => .dict (named [([0x62], .int (-2 ^ 63)), ([], .int (2 ^ 64 - 1)),
      ([0x22, 0x1F600], .text [0, 0x7F, 0xFEFF, 0x10FFFF])])
  | n + 1 => .list [deep n]

/-- Nested lists are portable to the depth to which they are nested. -/
theorem portable_deep (n : Nat) : (deep n).Portable (n + 1) := by
  induction n with
  | zero =>
    refine portable_named_iff.mpr ⟨by decide, by decide, ?_⟩
    simp only [List.forall_mem_cons]
    exact ⟨.int 0 (by decide), .int 0 (by decide), .text 0 (by decide), List.forall_mem_nil _⟩
  | succ n ih => exact .list (by simpa using ih)

/-- The deepest of these that either dialect writes goes out and comes back, compact as text and
indented as bytes. -/
theorem exchanges_of_portable_deep : (deep 253).Portable 254 ∧
    Exchanges .lenient false none (deep 253) false ∧
    Exchanges .strict true (some (optionOf ⟨true, false⟩)) (deep 253) true := by
  have hdeep := portable_deep 253
  obtain ⟨hplain, hstyled⟩ := exchanges_of_portable hdeep
  exact ⟨hdeep, hplain .lenient false, hstyled true ⟨true, false⟩⟩

end StreamConsumer.Json
