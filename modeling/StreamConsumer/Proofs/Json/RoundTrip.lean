import Mathlib.Data.List.Forall2
import StreamConsumer.Proofs.Json.Notation
import StreamConsumer.Proofs.Text.Utf8
import StreamConsumer.Proofs.Value.Members

/-!
# JSON read back

A value is portable if both dialects have a notation for it and agree on what it means:
`Value.Portable` builds such values from constants, integers of 64 bits, texts without surrogates,
lists and dictionaries, and counts how deep they nest. **Main statement** (`exists_isNotation`): the
writer of either dialect, compact or indented, has a text for a portable value, and that text is a
notation of the value. Such a text is read back by either dialect as a document, both as it is and
encoded as UTF-8 (`IsNotation.readSource_text`, `IsNotation.readSource_bytes`).
-/

namespace StreamConsumer

/-- A value that both dialects write and read alike, nested at most as deep as given. -/
inductive Value.Portable : Nat → Value → Prop where
  /-- No value. -/
  | null (n : Nat) : Portable n .null
  /-- A truth value. -/
  | bool (n : Nat) (b : Bool) : Portable n (.bool b)
  /-- An integer of 64 bits. -/
  | int (n : Nat) {i : Int} (h : FitsWord i) : Portable n (.int i)
  /-- A text without surrogates. -/
  | text (n : Nat) {t : Text} (h : t.IsScalar) : Portable n (.text t)
  /-- A list of such values. -/
  | list {n : Nat} {items : List Value} (h : ∀ v ∈ items, Portable n v) :
    Portable (n + 1) (.list items)
  /-- A dictionary of such values under different texts without surrogates. -/
  | dict {n : Nat} {ms : Members} (hk : ∀ m ∈ ms, ∃ t : Text, m.1 = .text t ∧ t.IsScalar)
    (hnd : (ms.map Prod.fst).Nodup) (h : ∀ m ∈ ms, Portable n m.2) : Portable (n + 1) (.dict ms)

namespace Json

/-! ### Containers -/

/-- The start of a line can be sent. -/
theorem isSendable_lineStart (s : JsonStyle) (depth : Nat) : IsSendable (lineStart s depth) := by
  intro k hk
  have hb := isBlank_of_mem_lineStart hk
  simp only [isBlank, Bool.or_eq_true, decide_eq_true_eq] at hb
  rcases hb with ((rfl | rfl) | rfl) | rfl <;> decide

/-- Texts that can be sent can be sent one after the other. -/
theorem isSendable_append {t u : Text} (ht : IsSendable t) (hu : IsSendable u) :
    IsSendable (t ++ u) := fun k hk =>
  (List.mem_append.mp hk).elim (ht k) (hu k)

/-- So they can with a separator between them. -/
theorem isSendable_joined {separator : Text} (hs : IsSendable separator) {pieces : List Text}
    (h : ∀ t ∈ pieces, IsSendable t) : IsSendable (Text.joined separator pieces) := by
  induction pieces with
  | nil => exact List.forall_mem_nil _
  | cons t ts ih =>
    have ht := h t List.mem_cons_self
    have hts := ih fun u hu => h u (List.mem_cons_of_mem t hu)
    cases ts with
    | nil => exact ht
    | cons u us => exact isSendable_append (isSendable_append ht hs) hts

/-- The text of a container that is not empty, without its brackets. -/
theorem bracketed_eq {s : JsonStyle} {depth : Nat} {opening closing : CodePoint}
    {pieces : List Text} (hne : pieces ≠ []) :
    bracketed s depth opening closing pieces =
      opening :: (lineStart s (depth + 1) ++
        (Text.joined ([0x2C] ++ lineStart s (depth + 1)) pieces ++
          (lineStart s depth ++ [closing]))) := by
  cases pieces with
  | nil => exact absurd rfl hne
  | cons t ts => simp [bracketed]

/-- The pieces are shorter than with brackets around them. -/
theorem length_joined_lt (s : JsonStyle) (depth : Nat) (opening closing : CodePoint)
    {pieces : List Text} (hne : pieces ≠ []) :
    (Text.joined ([0x2C] ++ lineStart s (depth + 1)) pieces).length + 1 <
      (bracketed s depth opening closing pieces).length := by
  rw [bracketed_eq hne]
  simp only [List.length_cons, List.length_append]
  omega

/-- Pieces that can be sent can be sent between brackets. -/
theorem isSendable_bracketed (s : JsonStyle) (depth : Nat) {opening closing : CodePoint}
    (ho : IsTextPoint opening) (hc : IsTextPoint closing) {pieces : List Text}
    (h : ∀ t ∈ pieces, IsSendable t) : IsSendable (bracketed s depth opening closing pieces) := by
  have hone {c : CodePoint} (hc : IsTextPoint c) : IsSendable [c] := fun k hk => by
    rwa [List.mem_singleton.mp hk]
  rcases eq_or_ne pieces [] with rfl | hne
  · exact isSendable_append (hone ho) (hone hc)
  · rw [bracketed_eq hne]
    have hline := isSendable_lineStart s
    have hsep := isSendable_append (hone (c := 0x2C) (by decide)) (hline (depth + 1))
    exact isSendable_append (hone ho) (isSendable_append (hline _)
      (isSendable_append (isSendable_joined hsep h) (isSendable_append (hline _) (hone hc))))

/-- Either dialect reads 254 levels. -/
theorem readsDepth_of_lt (d : Dialect) {depth : Nat} (h : depth < 254) :
    d.readsDepth depth = true := by
  cases d
  · simp only [Dialect.readsDepth, decide_eq_true_eq]
    omega
  · rfl

/-- Either dialect writes 254 levels. -/
theorem admitsDepth_of_lt (d : Dialect) {depth : Nat} (h : depth < 254) :
    d.admitsDepth depth = true := by
  cases d
  · simpa only [Dialect.admitsDepth, decide_eq_true_eq] using h
  · rfl

/-- What holds of the left of every pair holds of the left list. -/
theorem forall_mem_left {α β : Type} {R : α → β → Prop} {P : α → Prop} (hRP : ∀ a b, R a b → P a)
    {l : List α} {m : List β} (h : List.Forall₂ R l m) : ∀ a ∈ l, P a := by
  induction h with
  | nil => exact List.forall_mem_nil _
  | cons hab _ ih =>
    intro c hc
    rcases List.mem_cons.mp hc with rfl | hc
    · exact hRP _ _ hab
    · exact ih c hc

/-- **Containers.** Pieces between brackets are read as what they are put together to, if the opening
bracket has the reader look for the closing one or for pieces. -/
theorem readsAs_bracketed {β : Type} {d : Dialect} (s : JsonStyle) {depth : Nat}
    {opening close : CodePoint}
    (hopen : isBlank opening = false ∧ opening ≠ 0x5D ∧ opening.val < 0x80)
    (hclose : IsClosing close)
    {read : Nat → Text → Except ReadError (List β × Text)} (wrap : List β → Value)
    (hread : ∀ (fuel : Nat) (t rest : Text) (c : CodePoint), skipBlank t = c :: rest →
      readValue d (fuel + 1) depth (opening :: t) = if c = close then .ok (wrap [], rest)
        else (read fuel (c :: rest)).map fun r => (wrap r.1, r.2))
    {pieces : List Text} {bs : List β} (h : List.Forall₂ (IsPiece read close) pieces bs) :
    ReadsAs d (bracketed s depth opening close pieces) depth (wrap bs) := by
  have hcons : ∃ u, bracketed s depth opening close pieces = opening :: u := by
    cases pieces <;> exact ⟨_, rfl⟩
  refine ⟨?_, ?_⟩
  · obtain ⟨u, hu⟩ := hcons
    exact ⟨opening, u, hu, hopen⟩
  · intro fuel rest hf _
    obtain ⟨fuel, rfl⟩ : ∃ k, fuel = k + 1 := ⟨fuel - 1, by
      obtain ⟨u, hu⟩ := hcons
      rw [hu, List.length_cons] at hf
      omega⟩
    cases h with
    | nil => exact (hread fuel _ rest close (skipBlank_cons hclose.1 rest)).trans (if_pos rfl)
    | @cons t b ts bs ht hts =>
      have hline (n : Nat) : ∀ c ∈ lineStart s n, isBlank c = true := fun _ hc =>
        isBlank_of_mem_lineStart hc
      have hlen := length_joined_lt s depth opening close (List.cons_ne_nil t ts)
      have hpieces := read_joined hclose (hline (depth + 1)) (hline depth) (.cons ht hts)
        (List.cons_ne_nil t ts) fuel rest (by omega)
      obtain ⟨c, u, rfl, hblank, hc⟩ := ht.head
      obtain ⟨r, hr⟩ := exists_joined_eq_cons ([0x2C] ++ lineStart s (depth + 1))
        (lineStart s depth ++ close :: rest) c u ts
      have hsplit : bracketed s depth opening close ((c :: u) :: ts) ++ rest =
          opening :: (lineStart s (depth + 1) ++ c :: r) := by
        rw [bracketed_eq (List.cons_ne_nil _ ts), ← hr]
        simp
      rw [hr] at hpieces
      rw [hsplit, hread fuel _ r c (skipBlank_append (hline (depth + 1)) hblank r), if_neg hc,
        hpieces]
      rfl

/-- An opening bracket is followed by the closing one or by items. -/
theorem readValue_square {d : Dialect} {depth : Nat} (hd : d.readsDepth depth = true) (fuel : Nat)
    {t rest : Text} {c : CodePoint} (h : skipBlank t = c :: rest) :
    readValue d (fuel + 1) depth (0x5B :: t) = if c = 0x5D then .ok (.list [], rest)
      else (readItems d fuel (depth + 1) (c :: rest)).map fun r => (.list r.1, r.2) := by
  have hquote : (0x5B : CodePoint) ≠ 0x22 := by decide
  rw [readValue]
  simp only [if_neg hquote, if_true, hd, h]
  cases readItems d fuel (depth + 1) (c :: rest) <;> rfl

/-- An opening brace is followed by the closing one or by members. -/
theorem readValue_curly {d : Dialect} {depth : Nat} (hd : d.readsDepth depth = true) (fuel : Nat)
    {t rest : Text} {c : CodePoint} (h : skipBlank t = c :: rest) :
    readValue d (fuel + 1) depth (0x7B :: t) = if c = 0x7D then .ok (.dict [], rest)
      else (readMembers d fuel (depth + 1) (c :: rest)).map fun r =>
        (.dict (Members.ofList r.1), r.2) := by
  have hquote : (0x7B : CodePoint) ≠ 0x22 := by decide
  have hsquare : (0x7B : CodePoint) ≠ 0x5B := by decide
  rw [readValue]
  simp only [if_neg hquote, if_neg hsquare, if_true, hd, h]
  cases readMembers d fuel (depth + 1) (c :: rest) <;> rfl

/-- Pieces that are read as items are read between brackets as a list. -/
theorem readsAs_list {d : Dialect} (s : JsonStyle) {depth : Nat} (hdepth : depth < 254)
    {pieces : List Text} {items : List Value}
    (h : List.Forall₂ (fun t v => ReadsAs d t (depth + 1) v) pieces items) :
    ReadsAs d (bracketed s depth 0x5B 0x5D pieces) depth (.list items) := by
  refine readsAs_bracketed s (by decide) (by decide) .list ?_ (h.imp fun _ _ ht => ht.isPiece)
  intro fuel t rest c ht
  exact readValue_square (readsDepth_of_lt d hdepth) fuel ht

/-- Pieces that are read as members under different keys are read between braces as a dictionary. -/
theorem readsAs_dict {d : Dialect} (s : JsonStyle) {depth : Nat} (hdepth : depth < 254)
    {pieces : List Text} {ms : Members} (hk : ms.HasTextKeys) (hnd : (ms.map Prod.fst).Nodup)
    (h : List.Forall₂ (IsPiece (fun fuel => readMembers d fuel (depth + 1)) 0x7D) pieces ms) :
    ReadsAs d (bracketed s depth 0x7B 0x7D pieces) depth (.dict ms) := by
  rw [← Members.ofList_eq_self hk hnd]
  refine readsAs_bracketed s (by decide) (by decide) (fun ms => .dict (Members.ofList ms)) ?_ h
  intro fuel t rest c ht
  exact readValue_curly (readsDepth_of_lt d hdepth) fuel ht

/-- Notations of items are a notation of the list between brackets. -/
theorem isNotation_list {s : JsonStyle} {depth : Nat} (hdepth : depth < 254) {pieces : List Text}
    {items : List Value} (h : List.Forall₂ (fun t v => IsNotation t (depth + 1) v) pieces items) :
    IsNotation (bracketed s depth 0x5B 0x5D pieces) depth (.list items) := by
  have hsend := forall_mem_left (P := IsSendable) (fun _ _ h => h.sendable) h
  refine .of_readsAs (isSendable_bracketed s depth (by decide) (by decide) hsend) fun d => ?_
  exact readsAs_list s hdepth (h.imp fun _ _ ht => ht.readsAs d)

/-- Notations of members under different keys are a notation of the dictionary between braces. -/
theorem isNotation_dict {s : JsonStyle} {depth : Nat} (hdepth : depth < 254) {pieces : List Text}
    {ms : Members} (hk : ms.HasTextKeys) (hnd : (ms.map Prod.fst).Nodup)
    (h : List.Forall₂ (IsMember s (depth + 1)) pieces ms) :
    IsNotation (bracketed s depth 0x7B 0x7D pieces) depth (.dict ms) := by
  have hsend := forall_mem_left (P := IsSendable) (fun _ _ h => h.sendable) h
  refine .of_readsAs (isSendable_bracketed s depth (by decide) (by decide) hsend) fun d => ?_
  exact readsAs_dict s hdepth hk hnd (h.imp fun _ _ hm => hm.isPiece d)

/-! ### The writer -/

/-- Both dialects have an integer of 64 bits in digits. -/
theorem writeInt_of_fitsWord (d : Dialect) {i : Int} (hi : FitsWord i) :
    writeInt d i = .ok (Text.ofInt i) := by
  cases d with
  | strict => exact if_pos hi
  | lenient =>
    have hlt : i.natAbs < 10 ^ 20 := by
      obtain ⟨hleast, hgreatest⟩ := hi
      omega
    exact if_pos (Nat.le_trans (Text.length_ofNat_le (by decide) hlt) (by decide))

/-- A list is written item by item, unless it nests too deep. -/
theorem writeAt_list {d : Dialect} {depth : Nat} (h : d.admitsDepth depth = true) (s : JsonStyle)
    (items : List Value) : writeAt d s depth (.list items) = do
      let pieces ← writeItems d s (depth + 1) items
      return bracketed s depth 0x5B 0x5D pieces := by
  rw [writeAt, if_pos h]

/-- A dictionary is written member by member, unless they are to be put in order. -/
theorem writeAt_dict {d : Dialect} {depth : Nat} (h : d.admitsDepth depth = true) {s : JsonStyle}
    (hs : s.sorted = false) (ms : Members) : writeAt d s depth (.dict ms) = do
      let pieces ← memberPieces d s (writeMembers d s (depth + 1) ms)
      return bracketed s depth 0x7B 0x7D pieces := by
  rw [writeAt, if_pos h, arrange, if_neg (by simp [hs])]
  rfl

/-- Items are written if each of them is, to texts that stand to them as each one does. -/
theorem exists_writeItems {R : Text → Value → Prop} {d : Dialect} {s : JsonStyle} {depth : Nat}
    {items : List Value} (h : ∀ v ∈ items, ∃ t, writeAt d s depth v = .ok t ∧ R t v) :
    ∃ pieces, writeItems d s depth items = .ok pieces ∧ List.Forall₂ R pieces items := by
  induction items with
  | nil => exact ⟨[], rfl, .nil⟩
  | cons v vs ih =>
    obtain ⟨t, ht, hnt⟩ := h v List.mem_cons_self
    obtain ⟨ts, hts, hnts⟩ := ih fun w hw => h w (List.mem_cons_of_mem v hw)
    refine ⟨t :: ts, ?_, .cons hnt hnts⟩
    rw [writeItems, ht, hts]
    rfl

/-- A key that is a text is written as a text. -/
theorem writeKey_text (d : Dialect) (t : Text) : writeKey d (.text t) = writeText d t := by
  cases d <;> rfl

/-- Members are written if each key and each value is, to pieces that stand to them as each one does. -/
theorem exists_memberPieces {R : Text → Value × Value → Prop} {d : Dialect} {s : JsonStyle}
    {depth : Nat} {ms : Members}
    (h : ∀ m ∈ ms, ∃ key w, writeKey d m.1 = .ok key ∧ writeAt d s depth m.2 = .ok w ∧
      R (key ++ colon s ++ w) m) :
    ∃ pieces, memberPieces d s (writeMembers d s depth ms) = .ok pieces ∧
      List.Forall₂ R pieces ms := by
  induction ms with
  | nil => exact ⟨[], rfl, .nil⟩
  | cons m ms ih =>
    obtain ⟨key, w, hkey, hw, hm⟩ := h m List.mem_cons_self
    obtain ⟨ps, hps, hms⟩ := ih fun n hn => h n (List.mem_cons_of_mem _ hn)
    refine ⟨_, ?_, .cons hm hms⟩
    rw [writeMembers, memberPieces, hkey, hw, hps]
    rfl

/-- **Portable values are written.** The writer of either dialect has a text for a portable value that
does not nest too deep, and both dialects read that text as the value. -/
theorem exists_isNotation (d : Dialect) {s : JsonStyle} (hs : s.sorted = false) {n : Nat} {v : Value}
    (hv : v.Portable n) (depth : Nat) (hdepth : depth + n ≤ 254) :
    ∃ t, writeAt d s depth v = .ok t ∧ IsNotation t depth v := by
  induction hv generalizing depth with
  | null => exact ⟨_, rfl, isNotation_null depth⟩
  | bool _ b =>
    cases b
    · exact ⟨_, rfl, isNotation_false depth⟩
    · exact ⟨_, rfl, isNotation_true depth⟩
  | int _ hi => exact ⟨_, writeInt_of_fitsWord d hi, isNotation_int depth hi⟩
  | text _ ht => exact ⟨_, writeText_of_isScalar d ht, isNotation_text d depth ht⟩
  | @list n items _ ih =>
    obtain ⟨pieces, hpieces, hnot⟩ := exists_writeItems fun v hv =>
      ih v hv (depth + 1) (by omega)
    refine ⟨_, ?_, isNotation_list (s := s) (by omega) hnot⟩
    rw [writeAt_list (admitsDepth_of_lt d (by omega)), hpieces]
    rfl
  | @dict n ms hk hnd _ ih =>
    have hmember : ∀ m ∈ ms, ∃ key w, writeKey d m.1 = .ok key ∧
        writeAt d s (depth + 1) m.2 = .ok w ∧ IsMember s (depth + 1) (key ++ colon s ++ w) m := by
      intro m hm
      obtain ⟨key, hkey, hscalar⟩ := hk m hm
      obtain ⟨w, hw, hnw⟩ := ih m hm (depth + 1) (by omega)
      refine ⟨0x22 :: key.flatMap (escape d) ++ [0x22], w, ?_, hw,
        ⟨d, key, w, hkey, hscalar, hnw, by simp⟩⟩
      rw [hkey, writeKey_text, writeText_of_isScalar d hscalar]
    obtain ⟨pieces, hpieces, hmem⟩ := exists_memberPieces hmember
    refine ⟨_, ?_, isNotation_dict (by omega) (fun m hm => (hk m hm).imp fun _ h => h.1) hnd hmem⟩
    rw [writeAt_dict (admitsDepth_of_lt d (by omega)) hs, hpieces]
    rfl

/-! ### Documents -/

/-- A notation does not start with a byte order mark. -/
theorem IsNotation.head?_ne_mark {t : Text} {depth : Nat} {v : Value} (h : IsNotation t depth v) :
    t.head? ≠ some 0xFEFF := by
  obtain ⟨c, s, rfl, -, -, hlt⟩ := h.head
  intro hc
  obtain rfl : c = 0xFEFF := Option.some.inj hc
  exact absurd hlt (by decide)

/-- What is read as a value is the document of that value. -/
theorem ReadsAs.read_eq {d : Dialect} {t : Text} {v : Value} (h : ReadsAs d t 0 v) :
    Json.read d t = .ok v := by
  obtain ⟨c, s, hs, hblank, -⟩ := h.head
  have hread := h.read (2 * t.length + 2) [] (by omega) endsNumeral_nil
  rw [List.append_nil] at hread
  have hskip : skipBlank t = t := by rw [hs, skipBlank_cons hblank]
  rw [Json.read, hskip, hread]
  rfl

/-- The document of a value is read from its text. -/
theorem IsNotation.readSource_text {t : Text} {v : Value} (h : IsNotation t 0 v) (d : Dialect) :
    readSource d (.text t) = .ok v := by
  have hscalar : t.IsScalar := fun c hc => (h.sendable c hc).1
  cases d with
  | strict =>
    rw [readSource, if_pos hscalar]
    exact (h.readsAs .strict).read_eq
  | lenient =>
    have : readSource .lenient (.text t) = if t.head? = some 0xFEFF then .error .grammar
      else Json.read .lenient t := rfl
    rw [this, if_neg h.head?_ne_mark]
    exact (h.readsAs .lenient).read_eq

/-- Both dialects find a text in its UTF-8, unless it starts like bytes of another encoding. -/
theorem sourceText_encode (d : Dialect) {t : Text} (ht : t.IsScalar) (hmark : t.head? ≠ some 0xFEFF)
    (hzero : (0 : CodePoint) ∉ t.take 2) : sourceText d (Utf8.encode t) = .ok t := by
  cases d with
  | strict => rw [sourceText, Utf8.decode_encode (.inr ht)]
  | lenient => rw [sourceText, Encoding.decode_of_utf8 (Utf8.decode_encode (.inl rfl)) hmark hzero]

/-- Bytes are read as the text that they spell. -/
theorem readSource_bytes_fixed (d : Dialect) (s : List UInt8) :
    readSource d (.bytes .fixed s) = sourceText d s >>= Json.read d := by
  cases d <;> rfl

/-- The document of a value is read from the UTF-8 of its text. -/
theorem IsNotation.readSource_bytes {t : Text} {v : Value} (h : IsNotation t 0 v) (d : Dialect) :
    readSource d (.bytes .fixed (Utf8.encode t)) = .ok v := by
  have hscalar : t.IsScalar := fun c hc => (h.sendable c hc).1
  have hzero : (0 : CodePoint) ∉ t.take 2 := fun h0 =>
    (h.sendable 0 (List.mem_of_mem_take h0)).2 rfl
  rw [readSource_bytes_fixed, sourceText_encode d hscalar h.head?_ne_mark hzero]
  exact (h.readsAs d).read_eq

end Json

end StreamConsumer
