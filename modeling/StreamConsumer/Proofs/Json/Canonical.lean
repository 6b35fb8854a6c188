import StreamConsumer.Proofs.Json.Acceptance
import StreamConsumer.Proofs.Json.Exchange
import StreamConsumer.Proofs.Text.Decimal

/-!
# Canonical text

A value written in the order of its keys has one text for all values that are equal to it up to the
order of members. For values whose texts are ASCII the two dialects then differ in one code point
alone: U+007F, which the strict one writes as it is and the lenient one by its number
(`writeAt_lenient`). **Main statement** (`encodeText_canonical`): the lenient text is the strict one
with every U+007F by number, so they are the same exactly if no text and no key of the value has one.
-/

namespace StreamConsumer

/-- What holds of the texts of a value holds of them in any order. -/
theorem Value.Plain.of_reordered {P : Text → Prop} {n : Nat} {v w : Value} (hv : v.Plain P n)
    (h : v.Reordered w) : w.Plain P n := by
  induction h generalizing n with
  | refl => exact hv
  | @list items items' hlength _ ih =>
    cases hv with
    | list hv =>
      refine .list fun v' hv' => ?_
      obtain ⟨i, hi, rfl⟩ := List.mem_iff_getElem.mp hv'
      exact ih i (hlength ▸ hi) hi (hv _ (List.getElem_mem _))
  | @dict ms ms' hkeys _ ih =>
    cases hv with
    | dict hk hv =>
      have hother (m' : Value × Value) (hm' : m' ∈ ms') : ∃ m ∈ ms, m.1 = m'.1 :=
        List.mem_map.mp (hkeys.mem_iff.mpr (List.mem_map_of_mem hm'))
      refine .dict (fun m' hm' => ?_) fun m' hm' => ?_
      · obtain ⟨m, hm, hkey⟩ := hother m' hm'
        exact hkey ▸ hk m hm
      · obtain ⟨m, hm, hkey⟩ := hother m' hm'
        exact ih m hm m' hm' hkey (hv m hm)

namespace Json

variable {s : JsonStyle} {depth n : Nat} {c : CodePoint} {t : Text} {v w : Value}

/-! ### One code point by number -/

/-- The one control that only the lenient dialect takes for one: U+007F. -/
def del : CodePoint := 0x7F

/-- A text with every U+007F by its number. -/
def numberDel (t : Text) : Text := t.flatMap fun c => if c = del then unitEscape del.val else [c]

/-- The escape is made part by part. -/
theorem numberDel_append (t u : Text) : numberDel (t ++ u) = numberDel t ++ numberDel u :=
  List.flatMap_append

/-- Any other code point is kept. -/
theorem numberDel_cons_of_ne (h : c ≠ del) (t : Text) : numberDel (c :: t) = c :: numberDel t := by
  rw [numberDel, List.flatMap_cons, if_neg h]
  rfl

/-- A text without the code point is kept. -/
theorem numberDel_of_not_mem (h : del ∉ t) : numberDel t = t := by
  induction t with
  | nil => rfl
  | cons c t ih =>
    obtain ⟨hc, ht⟩ := not_or.mp (mt List.mem_cons.mpr h)
    rw [numberDel_cons_of_ne (Ne.symm hc), ih ht]

/-- The code point is no hexadecimal digit. -/
theorem del_ne_hexDigit (n : Nat) : del ≠ Text.hexDigit n := by
  intro h
  have hval := congrArg Fin.val h
  simp only [del, Text.hexDigit, Fin.ofNat] at hval
  split at hval <;> omega

/-- It is in no escape by number. -/
theorem del_not_mem_unitEscape (n : Nat) : del ∉ unitEscape n := by
  have hu : unitEscape n = 0x5C :: 0x75 :: Text.hexPadded 4 n := rfl
  simp only [hu, Text.hexPadded_four, List.mem_cons, List.not_mem_nil, or_false, del_ne_hexDigit]
  decide

/-- It is gone once it is escaped. -/
theorem del_not_mem_numberDel (t : Text) : del ∉ numberDel t := by
  intro h
  obtain ⟨c, -, hc⟩ := List.mem_flatMap.mp h
  split at hc
  · exact del_not_mem_unitEscape _ hc
  · rename_i hne
    exact hne (List.mem_singleton.mp hc).symm

/-- A text is changed exactly if it has a U+007F. -/
theorem numberDel_eq_self_iff : numberDel t = t ↔ del ∉ t := by
  constructor
  · intro h
    rw [← h]
    exact del_not_mem_numberDel t
  · exact numberDel_of_not_mem

/-! ### Strings -/

/-- In the strict dialect U+007F stands for itself alone. -/
theorem del_mem_escape_iff : del ∈ escape .strict c ↔ c = del := by
  constructor
  · intro h
    obtain ⟨ps, hps⟩ := exists_escapeForm .strict c
    generalize escape .strict c = t at h hps
    cases hps with
    | letter he =>
      obtain h | h := List.mem_cons.mp h
      · exact absurd h (by decide)
      · obtain rfl := List.mem_singleton.mp h
        rw [show letterEscape? del = none by decide] at he
        cases he
    | raw => exact (List.mem_singleton.mp h).symm
    | unit => exact absurd h (del_not_mem_unitEscape _)
    | pair =>
      obtain h | h := List.mem_append.mp h
      · exact absurd h (del_not_mem_unitEscape _)
      · exact absurd h (del_not_mem_unitEscape _)
  · rintro rfl
    decide

/-- In ASCII the dialects differ in U+007F alone. -/
theorem escape_lenient_of_ascii (h : c.val < 0x80) :
    escape .lenient c = numberDel (escape .strict c) := by
  by_cases hc : c = del
  · subst hc
    rfl
  · have hlt : c.val < 0x7F := by
      have hne : c.val ≠ 0x7F := fun hval => hc (Fin.ext hval)
      omega
    rw [numberDel_of_not_mem (mt del_mem_escape_iff.mp hc)]
    simp only [escape, hlt, true_or, if_true]

/-- A text of ASCII in quotation marks. -/
theorem writeText_lenient (ht : t.IsAscii) :
    writeText .lenient t = (writeText .strict t).map numberDel := by
  have hscalar : t.IsScalar := fun c hc hs => by
    have hlt := ht c hc
    have hle := hs.1
    omega
  have hescaped : t.flatMap (escape .lenient) = numberDel (t.flatMap (escape .strict)) := by
    rw [numberDel, List.flatMap_assoc]
    exact List.flatMap_congr fun c hc => escape_lenient_of_ascii (ht c hc)
  rw [writeText_of_isScalar .lenient hscalar, writeText_of_isScalar .strict hscalar, Except.map,
    numberDel_append, numberDel_cons_of_ne (by decide), hescaped]
  rfl

/-- A U+007F between quotation marks is one of the text. -/
theorem del_mem_quoted_iff (t : Text) :
    del ∈ 0x22 :: t.flatMap (escape .strict) ++ [0x22] ↔ del ∈ t := by
  have hquote : del ≠ 0x22 := by decide
  simp [del_mem_escape_iff, hquote]

/-! ### Containers -/

/-- It is at the start of no line. -/
theorem del_not_mem_lineStart (s : JsonStyle) (depth : Nat) : del ∉ lineStart s depth := fun h =>
  absurd (isBlank_of_mem_lineStart h) (by decide)

/-- Joined texts are escaped one by one if the separator has nothing to escape. -/
theorem numberDel_joined {separator : Text} (hs : del ∉ separator) (pieces : List Text) :
    numberDel (Text.joined separator pieces) = Text.joined separator (pieces.map numberDel) := by
  induction pieces with
  | nil => rfl
  | cons t ts ih =>
    cases ts with
    | nil => rfl
    | cons u us =>
      have hcons : Text.joined separator (t :: u :: us) =
          t ++ separator ++ Text.joined separator (u :: us) := rfl
      rw [hcons, numberDel_append, numberDel_append, ih, numberDel_of_not_mem hs]
      rfl

/-- The code point is in joined texts exactly if it is in one of them. -/
theorem del_mem_joined_iff {separator : Text} (hs : del ∉ separator) (pieces : List Text) :
    del ∈ Text.joined separator pieces ↔ ∃ t ∈ pieces, del ∈ t := by
  induction pieces with
  | nil => simp [Text.joined]
  | cons t ts ih =>
    cases ts with
    | nil => simp [Text.joined]
    | cons u us => simp [Text.joined, ih, hs]

/-- What stands between the pieces of a container has no U+007F. -/
theorem del_not_mem_separator (s : JsonStyle) (depth : Nat) :
    del ∉ [0x2C] ++ lineStart s depth := by
  rw [List.mem_append, not_or]
  exact ⟨by decide, del_not_mem_lineStart s depth⟩

/-- Pieces between brackets are escaped one by one. -/
theorem numberDel_bracketed {opening closing : CodePoint} (ho : opening ≠ del) (hc : closing ≠ del)
    (pieces : List Text) : numberDel (bracketed s depth opening closing pieces) =
      bracketed s depth opening closing (pieces.map numberDel) := by
  have hclosing : numberDel [closing] = [closing] := numberDel_of_not_mem (by simpa using hc.symm)
  cases pieces with
  | nil => rw [List.map_nil, bracketed, numberDel_cons_of_ne ho, hclosing]
  | cons t ts =>
    rw [bracketed_eq (List.cons_ne_nil t ts), bracketed_eq (by simp), numberDel_cons_of_ne ho,
      numberDel_append, numberDel_append, numberDel_append,
      numberDel_joined (del_not_mem_separator s (depth + 1)), hclosing,
      numberDel_of_not_mem (del_not_mem_lineStart s _),
      numberDel_of_not_mem (del_not_mem_lineStart s _)]

/-- The code point is missing between brackets exactly if it is missing in all pieces. -/
theorem del_not_mem_bracketed_iff {opening closing : CodePoint} (ho : opening ≠ del)
    (hc : closing ≠ del) (pieces : List Text) :
    del ∉ bracketed s depth opening closing pieces ↔ ∀ t ∈ pieces, del ∉ t := by
  cases pieces with
  | nil => simp [bracketed, ho.symm, hc.symm]
  | cons t ts =>
    rw [bracketed_eq (List.cons_ne_nil t ts)]
    simp only [List.mem_cons, List.mem_append, del_not_mem_lineStart, del_mem_joined_iff
      (del_not_mem_separator s (depth + 1)), ho.symm, hc.symm]
    simp

/-- It is not between a key and its value. -/
theorem del_not_mem_colon (s : JsonStyle) : del ∉ colon s := by
  unfold colon
  split <;> decide

/-! ### Values -/

/-- It is in no integer. -/
theorem del_not_mem_ofInt (i : Int) : del ∉ Text.ofInt i := by
  obtain ⟨c, t, hct, hpoints⟩ := ofInt_eq_cons i
  rw [hct]
  intro h
  exact absurd (hpoints del h) (by decide)

/-- Items are written in the lenient dialect as in the strict one, but for U+007F, if each is. -/
theorem writeItems_lenient {items : List Value} (h : ∀ v ∈ items,
    writeAt .lenient s depth v = (writeAt .strict s depth v).map numberDel) :
    writeItems .lenient s depth items =
      (writeItems .strict s depth items).map (List.map numberDel) := by
  induction items with
  | nil => rfl
  | cons v vs ih =>
    obtain ⟨hv, hvs⟩ := List.forall_mem_cons.mp h
    rw [writeItems, writeItems, hv, ih hvs]
    rcases writeAt .strict s depth v with _ | t
    · rfl
    · rcases writeItems .strict s depth vs with _ | ts <;> rfl

/-- So are members under ASCII texts. -/
theorem memberPieces_lenient {ms : Members} (hk : ∀ m ∈ ms, ∃ t, m.1 = .text t ∧ t.IsAscii)
    (h : ∀ m ∈ ms, writeAt .lenient s depth m.2 = (writeAt .strict s depth m.2).map numberDel) :
    memberPieces .lenient s (writeMembers .lenient s depth ms) =
      (memberPieces .strict s (writeMembers .strict s depth ms)).map (List.map numberDel) := by
  have hcolon := numberDel_of_not_mem (del_not_mem_colon s)
  induction ms with
  | nil => rfl
  | cons m ms ih =>
    obtain ⟨_, v⟩ := m
    obtain ⟨⟨key, rfl, hkey⟩, hks⟩ := List.forall_mem_cons.mp hk
    obtain ⟨hv, hvs⟩ := List.forall_mem_cons.mp h
    rw [writeMembers, writeMembers, memberPieces, memberPieces, writeKey_text, writeKey_text,
      writeText_lenient hkey, hv, ih hks hvs]
    rcases writeText .strict key with _ | k
    · rfl
    · rcases writeAt .strict s depth v with _ | t
      · rfl
      · rcases memberPieces .strict s (writeMembers .strict s depth ms) with _ | ts
        · rfl
        · simp only [Except.map, bind, Except.bind, pure, Except.pure, List.map_cons,
            numberDel_append, hcolon]

/-- **The dialects compared.** For a value whose texts are ASCII the lenient text is the strict one with
every U+007F by its number. -/
theorem writeAt_lenient (hs : s.sorted = false) (hv : v.Plain Text.IsAscii n) (depth : Nat)
    (hdepth : depth + n ≤ 254) :
    writeAt .lenient s depth v = (writeAt .strict s depth v).map numberDel := by
  induction hv generalizing depth with
  | null => rfl
  | bool _ b => cases b <;> rfl
  | int _ hi =>
    rw [writeAt, writeAt, writeInt_of_fitsWord .lenient hi, writeInt_of_fitsWord .strict hi,
      Except.map, numberDel_of_not_mem (del_not_mem_ofInt _)]
  | text _ ht => exact writeText_lenient ht
  | @list n items _ ih =>
    rw [writeAt_list (admitsDepth_of_lt .lenient (by omega)),
      writeAt_list (admitsDepth_of_lt .strict (by omega)),
      writeItems_lenient fun v hv => ih v hv (depth + 1) (by omega)]
    rcases writeItems .strict s (depth + 1) items with _ | pieces
    · rfl
    · exact congrArg Except.ok (numberDel_bracketed (by decide) (by decide) pieces).symm
  | @dict n ms hk _ ih =>
    rw [writeAt_dict (admitsDepth_of_lt .lenient (by omega)) hs,
      writeAt_dict (admitsDepth_of_lt .strict (by omega)) hs,
      memberPieces_lenient hk fun m hm => ih m hm (depth + 1) (by omega)]
    rcases memberPieces .strict s (writeMembers .strict s (depth + 1) ms) with _ | pieces
    · rfl
    · exact congrArg Except.ok (numberDel_bracketed (by decide) (by decide) pieces).symm

/-- What holds of pieces one by one holds of all of them together. -/
theorem forall_mem_iff_of_forall₂ {α : Type} {P : Text → Prop} {Q : α → Prop} {pieces : List Text}
    {as : List α} (h : List.Forall₂ (fun t a => P t ↔ Q a) pieces as) :
    (∀ t ∈ pieces, P t) ↔ ∀ a ∈ as, Q a := by
  induction h with
  | nil => simp
  | cons hta _ ih => rw [List.forall_mem_cons, List.forall_mem_cons, hta, ih]

/-- The strict text of a value has a U+007F exactly if one of its texts has one. -/
theorem exists_writeAt_strict (hs : s.sorted = false) (hv : v.Portable n) (depth : Nat)
    (hdepth : depth + n ≤ 254) :
    ∃ t, writeAt .strict s depth v = .ok t ∧ (del ∉ t ↔ v.Plain (del ∉ ·) n) := by
  induction hv generalizing depth with
  | null n => exact ⟨_, rfl, iff_of_true (by decide) (.null n)⟩
  | bool n b => cases b <;> exact ⟨_, rfl, iff_of_true (by decide) (.bool n _)⟩
  | int n hi =>
    exact ⟨_, writeInt_of_fitsWord .strict hi, iff_of_true (del_not_mem_ofInt _) (.int n hi)⟩
  | @text n t ht =>
    refine ⟨_, writeText_of_isScalar .strict ht, ?_⟩
    rw [Value.plain_text_iff, del_mem_quoted_iff]
  | @list n items _ ih =>
    obtain ⟨pieces, hpieces, hdel⟩ := exists_writeItems fun v hv => ih v hv (depth + 1) (by omega)
    refine ⟨bracketed s depth 0x5B 0x5D pieces, ?_, ?_⟩
    · rw [writeAt_list (admitsDepth_of_lt .strict (by omega)), hpieces]
      rfl
    · rw [del_not_mem_bracketed_iff (by decide) (by decide), Value.plain_list_iff]
      exact forall_mem_iff_of_forall₂ hdel
  | @dict n ms hk _ _ ih =>
    have hmember : ∀ m ∈ ms, ∃ key w, writeKey .strict m.1 = .ok key ∧
        writeAt .strict s (depth + 1) m.2 = .ok w ∧ (del ∉ key ++ colon s ++ w ↔
          (∃ t, m.1 = .text t ∧ del ∉ t) ∧ m.2.Plain (del ∉ ·) n) := by
      intro m hm
      obtain ⟨key, hkey, hscalar⟩ := hk m hm
      obtain ⟨w, hw, hdel⟩ := ih m hm (depth + 1) (by omega)
      have hname : (∃ t, m.1 = .text t ∧ del ∉ t) ↔ del ∉ key := by simp [hkey]
      refine ⟨0x22 :: key.flatMap (escape .strict) ++ [0x22], w, ?_, hw, ?_⟩
      · rw [hkey, writeKey_text, writeText_of_isScalar .strict hscalar]
      · rw [List.mem_append, List.mem_append, not_or, not_or, del_mem_quoted_iff, hdel, hname,
          and_iff_left (del_not_mem_colon s)]
    obtain ⟨pieces, hpieces, hdel⟩ := exists_memberPieces (R := fun t m =>
      del ∉ t ↔ (∃ key, m.1 = .text key ∧ del ∉ key) ∧ m.2.Plain (del ∉ ·) n) hmember
    refine ⟨bracketed s depth 0x7B 0x7D pieces, ?_, ?_⟩
    · rw [writeAt_dict (admitsDepth_of_lt .strict (by omega)) hs, hpieces]
      rfl
    · rw [del_not_mem_bracketed_iff (by decide) (by decide), Value.plain_dict_iff]
      exact forall_mem_iff_of_forall₂ hdel

/-! ### Both dialects -/

/-- A value in the compact style has this text in the strict dialect, and in the lenient one the same
text with every U+007F by number. -/
def HasTexts (sorted : Bool) (v : Value) (t : Text) : Prop :=
  encodeText .strict sorted none v = .ok t ∧ encodeText .lenient sorted none v = .ok (numberDel t)

/-- A portable value whose texts are ASCII has such texts, and they are the same exactly if none of its
own has a U+007F. -/
theorem exists_hasTexts (hv : v.Portable 254) (ha : v.Plain Text.IsAscii 254) :
    ∃ t, HasTexts false v t ∧ (numberDel t = t ↔ v.Plain (del ∉ ·) 254) := by
  obtain ⟨t, hstrict, hdel⟩ := exists_writeAt_strict (s := ⟨false, false⟩) rfl hv 0 (by omega)
  obtain ⟨t', ht', hnot⟩ := exists_isNotation .strict (s := ⟨false, false⟩) rfl hv 0 (by omega)
  obtain ⟨u, hu, hnot'⟩ := exists_isNotation .lenient (s := ⟨false, false⟩) rfl hv 0 (by omega)
  obtain rfl : t' = t := Except.ok.inj (ht'.symm.trans hstrict)
  obtain rfl : u = numberDel t' := by
    have hlenient := writeAt_lenient (s := ⟨false, false⟩) rfl ha 0 (by omega)
    rw [hu, hstrict] at hlenient
    exact Except.ok.inj hlenient
  refine ⟨t', ⟨?_, ?_⟩, numberDel_eq_self_iff.trans hdel⟩
  · exact encodeText_of_writeWith hstrict fun c hc => (hnot.sendable c hc).1
  · exact encodeText_of_writeWith hu fun c hc => (hnot'.sendable c hc).1

/-- In the order of its keys a value has the texts of the arranged value. -/
theorem encodeText_sorted (d : Dialect) (hv : v.Portable n) :
    encodeText d true none v = encodeText d false none v.arranged := by
  have hwrite : writeWith d true none v = writeWith d false none v.arranged := by
    cases d with
    | strict => exact writeAt_sorted .strict false hv 0
    | lenient => exact writeAt_sorted .lenient false hv 0
  cases d with
  | strict => rw [encodeText, encodeText, encodeBytes, encodeBytes, hwrite]
  | lenient => rw [encodeText, encodeText, hwrite]

/-- A portable value has the sorted texts that its arranged form has unsorted. -/
theorem hasTexts_sorted_iff (hv : v.Portable n) :
    HasTexts true v t ↔ HasTexts false v.arranged t := by
  rw [HasTexts, HasTexts, encodeText_sorted .strict hv, encodeText_sorted .lenient hv]

/-- **Canonical text.** Two values that are equal but for the order of members, with ASCII texts and at
most 254 deep, have one text in each dialect when members are put in order. The lenient one is the
strict one with every U+007F by number, in that order and in the value's own, and the two are the same
exactly if no text of the value has one. -/
theorem encodeText_canonical (hv : v.Portable 254) (ha : v.Plain Text.IsAscii 254)
    (hvw : v.Reordered w) :
    (∃ t, HasTexts true v t ∧ HasTexts true w t ∧
      (numberDel t = t ↔ v.Plain (del ∉ ·) 254)) ∧
    ∃ t, HasTexts false v t ∧ (numberDel t = t ↔ v.Plain (del ∉ ·) 254) := by
  refine ⟨?_, exists_hasTexts hv ha⟩
  obtain ⟨harranged, hw⟩ := Value.arranged_eq_of_reordered hv hvw
  have hreordered := Value.reordered_arranged hv
  obtain ⟨t, ht, hsame⟩ := exists_hasTexts (Value.portable_arranged hv) (ha.of_reordered hreordered)
  refine ⟨t, (hasTexts_sorted_iff hv).mpr ht, (hasTexts_sorted_iff hw).mpr (harranged ▸ ht), ?_⟩
  rw [hsame]
  exact ⟨fun h => h.of_reordered hreordered.symm, fun h => h.of_reordered hreordered⟩

/-- Two members, the name of the first with a U+007F. -/
def twoMembers : List (Text × Value) := [([0x62, 0x7F], .list [.bool true]), ([0x61], .int 1)]

/-- In each dialect both orders of them have one text when members are put in order, and the first has a
text in its own order. -/
theorem encodeText_canonical_twoMembers :
    ((Value.dict (named twoMembers)).Portable 254 ∧
      (Value.dict (named twoMembers)).Plain Text.IsAscii 254 ∧
      (Value.dict (named twoMembers)).Reordered (.dict (named twoMembers.reverse))) ∧
    (∃ t, HasTexts true (.dict (named twoMembers)) t ∧
      HasTexts true (.dict (named twoMembers.reverse)) t ∧
      (numberDel t = t ↔ (Value.dict (named twoMembers)).Plain (del ∉ ·) 254)) ∧
    ∃ t, HasTexts false (.dict (named twoMembers)) t ∧
      (numberDel t = t ↔ (Value.dict (named twoMembers)).Plain (del ∉ ·) 254) := by
  have hv : (Value.dict (named twoMembers)).Portable 254 := by
    refine portable_named_iff.mpr ⟨by decide, by decide, ?_⟩
    rw [twoMembers, List.forall_mem_cons, List.forall_mem_singleton]
    exact ⟨.list (List.forall_mem_singleton.mpr (.bool _ _)), .int _ (by decide)⟩
  have ha : (Value.dict (named twoMembers)).Plain Text.IsAscii 254 := by
    refine Value.plain_dict_iff.mpr (forall_mem_named.mpr ?_)
    rw [twoMembers, List.forall_mem_cons, List.forall_mem_singleton]
    exact ⟨⟨⟨_, rfl, by decide⟩, .list (List.forall_mem_singleton.mpr (.bool _ _))⟩,
      ⟨_, rfl, by decide⟩, .int _ (by decide)⟩
  have hvw : (Value.dict (named twoMembers)).Reordered (.dict (named twoMembers.reverse)) := by
    refine .dict (.swap _ _ _) ?_
    refine forall_mem_named.mpr fun p hp => forall_mem_named.mpr fun q hq hkey => ?_
    have hpq := List.inj_on_of_nodup_map (f := Prod.fst) (l := twoMembers) (by decide) hp
      (List.mem_reverse.mp hq) (Value.text_injective hkey)
    exact hpq ▸ .refl _
  exact ⟨⟨hv, ha, hvw⟩, encodeText_canonical hv ha hvw⟩

/-- U+007F by itself has one text in the strict dialect and another one in the lenient. -/
theorem encodeText_del_dialects :
    ((Value.text [del]).Portable 254 ∧ (Value.text [del]).Plain Text.IsAscii 254 ∧
      (Value.text [del]).Reordered (.text [del])) ∧
    ∀ sorted, ¬∃ t, encodeText .strict sorted none (.text [del]) = .ok t ∧
      encodeText .lenient sorted none (.text [del]) = .ok t := by
  refine ⟨⟨.text _ (by decide), .text _ (by decide), .refl _⟩, ?_⟩
  rintro sorted ⟨t, hstrict, hlenient⟩
  have hs : encodeText .strict sorted none (.text [del]) = .ok [0x22, 0x7F, 0x22] :=
    encodeText_of_writeWith rfl (by decide)
  have hl : encodeText .lenient sorted none (.text [del]) =
      .ok (0x22 :: unitEscape 0x7F ++ [0x22]) := encodeText_of_writeWith rfl (by decide)
  rw [hs] at hstrict
  rw [hl, ← hstrict] at hlenient
  exact absurd (Except.ok.inj hlenient) (by decide)

end Json

end StreamConsumer
