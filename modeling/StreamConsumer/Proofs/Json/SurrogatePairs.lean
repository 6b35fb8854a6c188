import StreamConsumer.Proofs.Json.Acceptance
import StreamConsumer.Proofs.Text.SurrogatePairs

/-!
# What a dialect keeps apart

The lenient dialect writes the halves of a surrogate pair as the code point that they stand for, so a
text and the text with its pairs joined are written alike, `writeText_joinPairs`. Nothing else is lost:
a dialect reads back whatever it wrote, provided that it keeps all texts of the value,
`exists_readsAs`. The strict one keeps the texts without surrogates, the lenient one those in which no
pair is split (`Dialect.Keeps`).
-/

namespace StreamConsumer

/-- A text that is read back as it was written: without surrogates in the strict dialect, and in the
lenient one without a surrogate pair that is given as two code points. -/
def Dialect.Keeps : Dialect → Text → Prop
  | .strict, t => t.IsScalar
  | .lenient, t => t.IsWhole

/-- A text with its pairs joined; any other value is as it was. -/
def Value.joinPairs : Value → Value
  | .text t => .text t.joinPairs
  | v => v

/-- Both dialects keep a text without surrogates. -/
theorem Dialect.keeps_of_isScalar (d : Dialect) {t : Text} (h : t.IsScalar) : d.Keeps t := by
  cases d with
  | strict => exact h
  | lenient => exact Text.isWhole_of_isScalar h

namespace Json

variable {c e : CodePoint} {t : Text}

/-! ### Pairs are written as one -/

/-- Beyond ASCII the lenient dialect writes numbers. -/
theorem escape_lenient (h : 0x7F ≤ c.val) : escape .lenient c =
    if c.val < 0x10000 then unitEscape c.val
    else unitEscape (0xD800 + (c.val - 0x10000) / 0x400) ++
      unitEscape (0xDC00 + (c.val - 0x10000) % 0x400) := by
  have hne {k : CodePoint} (hk : k.val < 0x7F) : c ≠ k := by
    rintro rfl
    omega
  rw [escape, if_neg (hne (by decide)), if_neg (hne (by decide)), if_neg (hne (by decide)),
    if_neg (hne (by decide)), if_neg (hne (by decide)), if_neg (hne (by decide)),
    if_neg (hne (by decide)), if_neg (by omega), if_neg]
  simp only [Dialect.asciiOnly, Bool.true_eq_false, or_false]
  omega

/-- The halves of a pair are written as the code point that they stand for. -/
theorem escape_ofPair (h : c.IsPair e) :
    escape .lenient (.ofPair c.val e.val) = escape .lenient c ++ escape .lenient e := by
  have hval := CodePoint.val_ofPair h
  obtain ⟨⟨hc, hc'⟩, he, he'⟩ := h
  have hhigh : 0xD800 + ((CodePoint.ofPair c.val e.val).val - 0x10000) / 0x400 = c.val := by omega
  have hlow : 0xDC00 + ((CodePoint.ofPair c.val e.val).val - 0x10000) % 0x400 = e.val := by omega
  rw [escape_lenient (by omega), escape_lenient (by omega), escape_lenient (by omega),
    if_neg (by omega), if_pos (by omega), if_pos (by omega), hhigh, hlow]

/-- The lenient dialect escapes a text and the text with its pairs joined alike. -/
theorem flatMap_escape_joinPairs (t : Text) :
    t.joinPairs.flatMap (escape .lenient) = t.flatMap (escape .lenient) := by
  fun_induction Text.joinPairs t with
  | case1 => rfl
  | case2 c => rfl
  | case3 c e t hce ih =>
    rw [List.flatMap_cons, ih, escape_ofPair hce, List.flatMap_cons, List.flatMap_cons,
      List.append_assoc]
  | case4 c e t hce ih => rw [List.flatMap_cons, ih, ← List.flatMap_cons]

/-- A text and the text with its pairs joined are written alike. -/
theorem writeText_joinPairs (t : Text) : writeText .lenient t.joinPairs = writeText .lenient t := by
  rw [writeText, writeText, if_pos (.inl rfl), if_pos (.inl rfl), flatMap_escape_joinPairs]

/-- So are a value and the value with its pairs joined. -/
theorem writeAt_joinPairs (s : JsonStyle) (depth : Nat) (v : Value) :
    writeAt .lenient s depth v.joinPairs = writeAt .lenient s depth v := by
  cases v with
  | text t => exact writeText_joinPairs t
  | _ => rfl

/-- Members whose values are written as before are written as before. -/
theorem writeMembers_mapValues {d : Dialect} {s : JsonStyle} {depth : Nat} {f : Value → Value}
    (h : ∀ v, writeAt d s depth (f v) = writeAt d s depth v) (ms : Members) :
    writeMembers d s depth (ms.mapValues f) = writeMembers d s depth ms := by
  induction ms with
  | nil => rfl
  | cons m ms ih =>
    obtain ⟨k, v⟩ := m
    rw [Members.mapValues_cons, writeMembers, writeMembers, h, ih]

/-- A dictionary is written as its members are. -/
theorem writeAt_dict_congr {d : Dialect} {s : JsonStyle} {depth : Nat} {ms ms' : Members}
    (h : writeMembers d s (depth + 1) ms = writeMembers d s (depth + 1) ms') :
    writeAt d s depth (.dict ms) = writeAt d s depth (.dict ms') := by
  rw [writeAt, writeAt, h]

/-! ### Strings read back -/

/-- The first piece is the number of a low surrogate. -/
def StartsLow (ps : List Piece) : Prop := ∃ n qs, ps = .unit n :: qs ∧ 0xDC00 ≤ n ∧ n < 0xE000

/-- In the lenient dialect an escape stands for itself, unless it makes a pair with the next one. -/
theorem spell?_unit_lenient {n : Nat} {ps : List Piece}
    (h : 0xD800 ≤ n ∧ n < 0xDC00 → ¬ StartsLow ps) :
    spell? .lenient (.unit n :: ps) = (spell? .lenient ps).map (Fin.ofNat _ n :: ·) := by
  have hl : lone? .lenient n = some (Fin.ofNat _ n) := by
    rw [lone?, if_neg (fun hd => by cases hd.1)]
  rw [spell?.eq_def]
  simp only
  split
  · rename_i m rest
    have hpair : ¬ (0xD800 ≤ n ∧ n < 0xDC00 ∧ 0xDC00 ≤ m ∧ m < 0xE000) := by
      rintro ⟨hn, hn', hm⟩
      exact h ⟨hn, hn'⟩ ⟨m, rest, rfl, hm⟩
    rw [if_neg hpair, hl]
    cases spell? .lenient _ <;> rfl
  · rw [hl]
    cases spell? .lenient ps <;> rfl

/-- The escape of a code point starts like a low surrogate only if it is one. -/
theorem EscapeForm.isLowSurrogate {ps qs : List Piece} (h : EscapeForm c t ps)
    (hlow : StartsLow (ps ++ qs)) : c.IsLowSurrogate := by
  have hlt := c.isLt
  obtain ⟨n, rs, hn, hrange⟩ := hlow
  cases h with
  | letter => cases hn
  | raw => cases hn
  | unit =>
    cases hn
    exact hrange
  | pair =>
    cases hn
    omega

/-- In the lenient dialect the pieces of a code point spell it, unless they make a pair with the
next ones. -/
theorem EscapeForm.spell?_lenient {ps qs : List Piece} (h : EscapeForm c t ps)
    (hnext : c.IsHighSurrogate → ¬ StartsLow qs) :
    spell? .lenient (ps ++ qs) = (spell? .lenient qs).map (c :: ·) := by
  by_cases hc : c.IsScalar
  · exact h.spell?_append hc .lenient qs
  · have hc := not_not.mp hc
    cases h with
    | letter => rfl
    | raw => rfl
    | unit => rw [List.singleton_append, spell?_unit_lenient hnext, Fin.ofNat_val_eq_self]
    | pair hle => exact absurd hc.2 (by omega)

/-- The escapes of a whole text, up to the closing quotation mark, are read as pieces that spell it.
They start like a low surrogate only if the text does. -/
theorem exists_pieces?_lenient (ht : t.IsWhole) (rest : Text) :
    ∃ ps, pieces? (t.flatMap (escape .lenient) ++ 0x22 :: rest) = some (ps, rest) ∧
      spell? .lenient ps = some t ∧ (StartsLow ps → ∃ e ∈ t.head?, e.IsLowSurrogate) := by
  induction t with
  | nil =>
    refine ⟨[], ?_, rfl, ?_⟩
    · rw [pieces?.eq_def]
      rfl
    · rintro ⟨n, qs, hn, -⟩
      cases hn
  | cons c t ih =>
    obtain ⟨hnext, ht⟩ := List.isChain_cons.mp ht
    obtain ⟨qs, hqs, hspell, hlow⟩ := ih ht
    obtain ⟨ps, hps⟩ := exists_escapeForm .lenient c
    refine ⟨ps ++ qs, ?_, ?_, fun h => ⟨c, rfl, hps.isLowSurrogate h⟩⟩
    · rw [List.flatMap_cons, List.append_assoc, hps.pieces?_append, hqs]
      rfl
    · rw [hps.spell?_lenient, hspell]
      · rfl
      · intro hhigh hstarts
        obtain ⟨e, he, helow⟩ := hlow hstarts
        exact hnext e he ⟨hhigh, helow⟩

/-- **Strings read back.** What a dialect wrote after the opening quotation mark it reads as the text it
was written for, if it keeps that text. -/
theorem readText_kept (d : Dialect) (ht : d.Keeps t) (rest : Text) :
    readText d (t.flatMap (escape d) ++ 0x22 :: rest) = .ok (t, rest) := by
  cases d with
  | strict => exact readText_written .strict .strict ht rest
  | lenient =>
    obtain ⟨ps, hps, hspell, -⟩ := exists_pieces?_lenient ht rest
    rw [readText, hps]
    simp only [hspell]

/-- A dialect writes the texts that it keeps. -/
theorem writeText_kept (d : Dialect) (ht : d.Keeps t) :
    writeText d t = .ok (0x22 :: t.flatMap (escape d) ++ [0x22]) := by
  have hwritten : d.asciiOnly = true ∨ t.IsScalar := by
    cases d with
    | strict => exact .inr ht
    | lenient => exact .inl rfl
  rw [writeText, if_pos hwritten]
  rfl

/-! ### Values read back -/

/-- **Values read back.** What a dialect writes of a plain value that does not nest too deep it reads as
that value, if it keeps all its texts and no key is there twice. -/
theorem exists_readsAs (d : Dialect) {s : JsonStyle} (hs : s.sorted = false) {n : Nat} {v : Value}
    (hv : v.Plain d.Keeps n) (hjson : v.IsJson .lenient) (depth : Nat) (hdepth : depth + n ≤ 254) :
    ∃ t, writeAt d s depth v = .ok t ∧ ReadsAs d t depth v := by
  induction hv generalizing depth with
  | null => exact ⟨_, rfl, (isNotation_null depth).readsAs d⟩
  | bool _ b =>
    cases b
    · exact ⟨_, rfl, (isNotation_false depth).readsAs d⟩
    · exact ⟨_, rfl, (isNotation_true depth).readsAs d⟩
  | int _ hi => exact ⟨_, writeInt_of_fitsWord d hi, (isNotation_int depth hi).readsAs d⟩
  | text _ ht => exact ⟨_, writeText_kept d ht, readsAs_text depth (readText_kept d ht)⟩
  | @list n items _ ih =>
    cases hjson with
    | list hitems =>
      obtain ⟨pieces, hpieces, hread⟩ := exists_writeItems fun v hv =>
        ih v hv (hitems v hv) (depth + 1) (by omega)
      refine ⟨_, ?_, readsAs_list s (by omega) hread⟩
      rw [writeAt_list (admitsDepth_of_lt d (by omega)), hpieces]
      rfl
  | @dict n ms hk _ ih =>
    cases hjson with
    | dict _ hnd hvalues =>
      have hmember : ∀ m ∈ ms, ∃ key w, writeKey d m.1 = .ok key ∧
          writeAt d s (depth + 1) m.2 = .ok w ∧
          IsPiece (fun fuel => readMembers d fuel (depth + 1)) 0x7D (key ++ colon s ++ w) m := by
        rintro ⟨k, v⟩ hm
        obtain ⟨key, hkey, hkept⟩ := hk _ hm
        obtain rfl : k = .text key := hkey
        obtain ⟨w, hw, hread⟩ := ih _ hm (hvalues _ hm) (depth + 1) (by omega)
        refine ⟨0x22 :: key.flatMap (escape d) ++ [0x22], w, ?_, hw, ?_⟩
        · rw [writeKey_text, writeText_kept d hkept]
        · simpa using hread.isPiece_member s (readText_kept d hkept)
      obtain ⟨pieces, hpieces, hread⟩ := exists_memberPieces hmember
      have htexts : ms.HasTextKeys := fun m hm => (hk m hm).imp fun _ h => h.1
      refine ⟨_, ?_, readsAs_dict s (by omega) htexts hnd hread⟩
      rw [writeAt_dict (admitsDepth_of_lt d (by omega)) hs, hpieces]
      rfl

end Json

end StreamConsumer
