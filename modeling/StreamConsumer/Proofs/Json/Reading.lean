import Mathlib.Data.List.TakeDrop
import StreamConsumer.Json.Reader
import StreamConsumer.Proofs.Outcome
import StreamConsumer.Proofs.Text.Utf8
import StreamConsumer.Proofs.Value.Members

/-!
# What is read

Whatever document is read in a dialect, its value is one of that dialect: `Value.IsJson` says that its
integers and texts are such as the dialect admits, its numbers finite where the dialect has only such,
and the keys of its dictionaries different texts. **Main statement** (`isJson_of_readSource`).

Every scanner leaves a suffix of what it was given, so that what holds of all code points of a document
holds of those that are left. The three readers are treated together by induction on their fuel,
`Sound`.
-/

namespace StreamConsumer

/-- A text of a dialect: the strict one has no surrogates. -/
def Dialect.AdmitsText (d : Dialect) (t : Text) : Prop := d = .strict → t.IsScalar

/-- A value of a dialect. -/
inductive Value.IsJson (d : Dialect) : Value → Prop where
  /-- No value. -/
  | null : IsJson d .null
  /-- A truth value. -/
  | bool (b : Bool) : IsJson d (.bool b)
  /-- An integer that the dialect admits. -/
  | int {i : Int} (h : d.admitsInt i = true) : IsJson d (.int i)
  /-- A number; the strict dialect has no infinity. -/
  | float {x : Binary64} (h : ∀ negative, x = .infinite negative → d = .lenient) : IsJson d (.float x)
  /-- "Not a number", in the lenient dialect alone. -/
  | nan (n : Nat) (h : d = .lenient) : IsJson d (.nan n)
  /-- A text that the dialect admits. -/
  | text {t : Text} (h : d.AdmitsText t) : IsJson d (.text t)
  /-- A list of such values. -/
  | list {items : List Value} (h : ∀ v ∈ items, IsJson d v) : IsJson d (.list items)
  /-- A dictionary of such values under different such texts. -/
  | dict {ms : Members} (hk : ∀ m ∈ ms, ∃ t, m.1 = .text t ∧ d.AdmitsText t)
    (hnd : (ms.map Prod.fst).Nodup) (h : ∀ m ∈ ms, IsJson d m.2) : IsJson d (.dict ms)

/-- The values in a dictionary of a dialect are of that dialect. -/
theorem Value.IsJson.get {d : Dialect} {ms : Members} (h : (Value.dict ms).IsJson d) (key : Text) :
    (ms.get key).IsJson d := by
  cases h with
  | dict _ _ hv =>
    obtain hnull | ⟨m, hm, hget⟩ := ms.get_eq_null_or key
    · rw [hnull]
      exact .null
    · rw [← hget]
      exact hv m hm

namespace Json

variable {d : Dialect} {s rest : Text}

/-- What is left of a text of a dialect is one too. -/
theorem admitsText_of_suffix (h : rest <:+ s) (hs : d.AdmitsText s) : d.AdmitsText rest :=
  fun hd c hc => hs hd c (h.subset hc)

/-- What is left after blanks is an end of the text. -/
theorem skipBlank_suffix (s : Text) : skipBlank s <:+ s := List.dropWhile_suffix isBlank

/-- What comes after blanks is a suffix. -/
theorem suffix_of_skipBlank {r u : Text} {c : CodePoint} (h : skipBlank r = c :: u) (hr : r <:+ s) :
    c :: u <:+ s := by
  rw [← h]
  exact (skipBlank_suffix r).trans hr

/-! ### Strings -/

/-- A piece of a string comes from its text or is ASCII, or it is a code unit. -/
def IsPieceOf (s : Text) : Piece → Prop
  | .plain c => c ∈ s ∨ c.val < 0x80
  | .unit n => n < 0x10000

/-- A piece of an end is a piece of the whole. -/
theorem IsPieceOf.of_suffix (h : rest <:+ s) {p : Piece} (hp : IsPieceOf rest p) : IsPieceOf s p := by
  cases p with
  | plain c => exact hp.imp_left fun hc => h.subset hc
  | unit n => exact hp

/-- A letter stands for an ASCII code point. -/
theorem letterEscape?_lt {e c : CodePoint} (h : letterEscape? e = some c) : c.val < 0x80 := by
  unfold letterEscape? at h
  split at h
  · rename_i he
    obtain rfl := Option.some.inj h
    rcases he with rfl | rfl | rfl <;> decide
  · repeat' split at h
    all_goals first | cases h; decide | cases h

/-- A hexadecimal digit is below sixteen. -/
theorem hexDigit?_lt {c : CodePoint} {n : Nat} (h : c.hexDigit? = some n) : n < 16 := by
  unfold CodePoint.hexDigit? at h
  repeat' split at h
  all_goals first | (obtain rfl := Option.some.inj h; omega) | cases h

/-- Four hexadecimal digits have 16 bits. -/
theorem hex4?_lt {a b c e : CodePoint} {n : Nat} (h : hex4? a b c e = some n) : n < 0x10000 := by
  unfold hex4? at h
  simp only [Option.bind_eq_bind, Option.bind_eq_some_iff, Option.pure_def, Option.some.injEq] at h
  obtain ⟨a, ha, b, hb, c, hc, e, he, rfl⟩ := h
  have := hexDigit?_lt ha
  have := hexDigit?_lt hb
  have := hexDigit?_lt hc
  have := hexDigit?_lt he
  omega

/-- One more piece at the start. -/
theorem pieces_cons {s' : Text} {p : Piece} {ps : List Piece} (hs : s' <:+ s) (hp : IsPieceOf s p)
    (h : rest <:+ s' ∧ ∀ q ∈ ps, IsPieceOf s' q) : rest <:+ s ∧ ∀ q ∈ p :: ps, IsPieceOf s q :=
  ⟨h.1.trans hs, List.forall_mem_cons.mpr ⟨hp, fun q hq => (h.2 q hq).of_suffix hs⟩⟩

/-- The pieces of a string come from its text, and what follows it is a suffix. -/
theorem pieces?_sound {ps : List Piece} (h : pieces? s = some (ps, rest)) :
    rest <:+ s ∧ ∀ p ∈ ps, IsPieceOf s p := by
  fun_induction pieces? s generalizing ps rest with
  | case1 => cases h
  | case2 s =>
    obtain ⟨rfl, rfl⟩ := Prod.mk.inj (Option.some.inj h)
    exact ⟨List.suffix_cons _ _, List.forall_mem_nil _⟩
  | case3 => cases h
  | case4 => cases h
  | case5 h1 h2 h3 h4 s _ _ ih =>
    simp only [Option.bind_eq_bind, Option.bind_eq_some_iff, Option.pure_def, Option.some.injEq] at h
    obtain ⟨n, hn, ⟨ps', rest'⟩, hps, h⟩ := h
    obtain ⟨rfl, rfl⟩ := Prod.mk.inj h
    have hsuffix : s <:+ 0x5C :: 0x75 :: h1 :: h2 :: h3 :: h4 :: s :=
      List.suffix_append [0x5C, 0x75, h1, h2, h3, h4] s
    exact pieces_cons hsuffix (hex4?_lt hn) (ih hps)
  | case6 => cases h
  | case7 e s _ _ _ ih =>
    simp only [Option.bind_eq_bind, Option.bind_eq_some_iff, Option.pure_def, Option.some.injEq] at h
    obtain ⟨c, hc, ⟨ps', rest'⟩, hps, h⟩ := h
    obtain ⟨rfl, rfl⟩ := Prod.mk.inj h
    exact pieces_cons (List.suffix_append [0x5C, e] s) (.inr (letterEscape?_lt hc)) (ih hps)
  | case8 c s _ _ _ ih =>
    simp only [Option.bind_eq_bind, Option.bind_eq_some_iff, Option.pure_def, Option.some.injEq] at h
    obtain ⟨⟨ps', rest'⟩, hps, h⟩ := h
    obtain ⟨rfl, rfl⟩ := Prod.mk.inj h
    exact pieces_cons (List.suffix_cons c s) (.inl List.mem_cons_self) (ih hps)

/-- The strict dialect admits no surrogate alone. -/
theorem isScalar_of_lone? {n : Nat} {c : CodePoint} (hn : n < 0x10000)
    (h : lone? .strict n = some c) : c.IsScalar := by
  unfold lone? at h
  split at h
  · simp at h
  · rename_i hlone
    obtain rfl := Option.some.inj h
    have hrange := not_and.mp hlone rfl
    exact CodePoint.isScalar_ofNat (by omega) (by omega)

/-- What pieces of a text of the strict dialect spell is one too. -/
theorem isScalar_of_spell? (hs : s.IsScalar) {ps : List Piece} (hps : ∀ p ∈ ps, IsPieceOf s p)
    {t : Text} (h : spell? .strict ps = some t) : t.IsScalar := by
  have hcons {c : CodePoint} {t : Text} (hc : c.IsScalar) (ht : t.IsScalar) :
      Text.IsScalar (c :: t) := List.forall_mem_cons.mpr ⟨hc, ht⟩
  fun_induction spell? .strict ps generalizing t with
  | case1 =>
    obtain rfl := Option.some.inj h
    exact List.forall_mem_nil _
  | case2 c ps ih =>
    obtain ⟨hp, hps⟩ := List.forall_mem_cons.mp hps
    obtain ⟨t', ht', rfl⟩ := Option.map_eq_some_iff.mp h
    refine hcons ?_ (ih hps ht')
    rcases hp with hmem | hlt
    · exact hs c hmem
    · intro hsurrogate
      have := hsurrogate.1
      omega
  | case3 n m ps _ ih =>
    obtain ⟨t', ht', rfl⟩ := Option.map_eq_some_iff.mp h
    have hps' := (List.forall_mem_cons.mp (List.forall_mem_cons.mp hps).2).2
    exact hcons (CodePoint.isScalar_ofPair n m) (ih hps' ht')
  | case4 n m ps _ ih =>
    simp only [Option.bind_eq_bind, Option.bind_eq_some_iff, Option.pure_def, Option.some.injEq] at h
    obtain ⟨c, hc, t', ht', rfl⟩ := h
    obtain ⟨hp, hps⟩ := List.forall_mem_cons.mp hps
    exact hcons (isScalar_of_lone? hp hc) (ih hps ht')
  | case5 n ps _ ih =>
    simp only [Option.bind_eq_bind, Option.bind_eq_some_iff, Option.pure_def, Option.some.injEq] at h
    obtain ⟨c, hc, t', ht', rfl⟩ := h
    obtain ⟨hp, hps⟩ := List.forall_mem_cons.mp hps
    exact hcons (isScalar_of_lone? hp hc) (ih hps ht')

/-- A string in a text of a dialect is one too, and what follows it is a suffix. -/
theorem readText_sound {t : Text} (hs : d.AdmitsText s) (h : readText d s = .ok (t, rest)) :
    rest <:+ s ∧ d.AdmitsText t := by
  unfold readText at h
  split at h
  · simp at h
  · rename_i ps rest' hps
    obtain ⟨hsuffix, hpieces⟩ := pieces?_sound hps
    split at h
    · simp at h
    · rename_i t' ht
      obtain ⟨rfl, rfl⟩ := Prod.mk.inj (Except.ok.inj h)
      refine ⟨hsuffix, ?_⟩
      rintro rfl
      exact isScalar_of_spell? (hs rfl) hpieces ht

/-! ### Numbers and constants -/

/-- What a span leaves is an end of the text. -/
theorem span_suffix (p : CodePoint → Bool) (s : Text) : (s.span p).2 <:+ s := by
  rw [List.span_eq_takeWhile_dropWhile]
  exact List.dropWhile_suffix p

/-- What the whole part of a numeral leaves is an end of the text. -/
theorem whole?_suffix {digits : Text} (h : whole? s = some (digits, rest)) : rest <:+ s := by
  unfold whole? at h
  split at h
  · simp at h
  · split at h
    · obtain ⟨-, rfl⟩ := Prod.mk.inj (Option.some.inj h)
      exact List.suffix_cons _ _
    · split at h
      · obtain ⟨-, rfl⟩ := Prod.mk.inj (Option.some.inj h)
        exact (span_suffix _ _).trans (List.suffix_cons _ _)
      · simp at h

/-- So is what its fraction leaves. -/
theorem fractionDigits_suffix (s : Text) : (fractionDigits s).2 <:+ s := by
  unfold fractionDigits
  split
  · split
    · exact (span_suffix _ _).trans (List.suffix_append [_, _] _)
    · exact List.suffix_rfl
  · exact List.suffix_rfl

/-- So is what a signed number leaves. -/
theorem signed?_suffix {i : Int} (h : signed? s = some (i, rest)) : rest <:+ s := by
  unfold signed? at h
  split at h
  · simp at h
  · rename_i c s
    have hrun : (if c = 0x2B ∨ c = 0x2D then s.span CodePoint.isDigit
        else (c :: s).span CodePoint.isDigit).2 <:+ c :: s := by
      split
      · exact (span_suffix _ s).trans (List.suffix_cons c s)
      · exact span_suffix _ _
    generalize (if c = 0x2B ∨ c = 0x2D then s.span CodePoint.isDigit
      else (c :: s).span CodePoint.isDigit) = r at h hrun
    obtain ⟨run, rest'⟩ := r
    simp only at h
    split at h
    · simp at h
    · obtain ⟨-, rfl⟩ := Prod.mk.inj (Option.some.inj h)
      exact hrun

/-- So is what its exponent leaves. -/
theorem exponentValue_suffix (s : Text) : (exponentValue s).2 <:+ s := by
  unfold exponentValue
  split
  · split
    · split
      · rename_i hsigned
        exact (signed?_suffix hsigned).trans (List.suffix_cons _ _)
      · exact List.suffix_rfl
    · exact List.suffix_rfl
  · exact List.suffix_rfl

/-- A numeral is a whole part and more, after a sign or not. -/
theorem numeral?_eq_some {n : Numeral} (h : numeral? s = some (n, rest)) :
    ∃ u u', (s = u ∨ s = 0x2D :: u) ∧ whole? u = some (n.whole, u') ∧ rest <:+ u' := by
  unfold numeral? at h
  cases s with
  | nil => cases h
  | cons c r =>
    have hsign : c :: r = (if c = 0x2D then (true, r) else (false, c :: r)).2 ∨
        c :: r = 0x2D :: (if c = 0x2D then (true, r) else (false, c :: r)).2 := by
      split
      · rename_i hc
        exact .inr (hc ▸ rfl)
      · exact .inl rfl
    simp only at h
    generalize (if c = 0x2D then (true, r) else (false, c :: r)) = sign at h hsign
    obtain ⟨negative, u⟩ := sign
    simp only at h
    split at h
    · cases h
    · rename_i whole u' hwhole
      obtain ⟨rfl, rfl⟩ := Prod.mk.inj (Option.some.inj h)
      exact ⟨u, u', hsign, hwhole, (exponentValue_suffix _).trans (fractionDigits_suffix _)⟩

/-- So is what a numeral leaves. -/
theorem numeral?_suffix {n : Numeral} (h : numeral? s = some (n, rest)) : rest <:+ s := by
  obtain ⟨u, u', hsign, hwhole, hrest⟩ := numeral?_eq_some h
  have hu := hrest.trans (whole?_suffix hwhole)
  rcases hsign with rfl | rfl
  · exact hu
  · exact hu.trans (List.suffix_cons _ _)

/-- A number that is taken is the value. -/
theorem eq_float_of_finiteValue {x : Binary64} {v : Value} (h : finiteValue d x = .ok v) :
    v = .float x := by
  unfold finiteValue at h
  split at h
  · split at h
    · cases h
    · exact (Except.ok.inj h).symm
  · exact (Except.ok.inj h).symm

/-- A number that is taken is one that the dialect has. -/
theorem isJson_finiteValue {x : Binary64} {v : Value} (h : finiteValue d x = .ok v) : v.IsJson d := by
  unfold finiteValue at h
  split at h
  · split at h
    · simp at h
    · rename_i negative hd
      obtain rfl := Except.ok.inj h
      refine .float fun _ _ => ?_
      cases d
      · exact absurd rfl hd
      · rfl
  · rename_i hx
    obtain rfl := Except.ok.inj h
    exact .float fun negative hi => absurd hi (hx negative)

/-- A numeral stands for an integer that the dialect admits or for a number that it has. -/
theorem numeralValue_eq_ok {n : Numeral} {v : Value} (h : numeralValue d n = .ok v) :
    (∃ i, v = .int i ∧ d.admitsInt i = true) ∨ ∃ x, finiteValue d x = .ok v := by
  unfold numeralValue at h
  split at h
  · unfold integerValue at h
    simp only at h
    generalize (if n.negative then -(n.whole.digitsValue : Int) else n.whole.digitsValue) = i at h
    cases d with
    | strict =>
      simp only at h
      split at h
      · rename_i hi
        exact .inl ⟨i, (Except.ok.inj h).symm, hi⟩
      · exact .inr ⟨_, h⟩
    | lenient =>
      simp only at h
      split at h
      · exact .inl ⟨i, (Except.ok.inj h).symm, rfl⟩
      · cases h
  · exact .inr ⟨_, h⟩

/-- A numeral is read as a value that the dialect has. -/
theorem isJson_numeralValue {n : Numeral} {v : Value} (h : numeralValue d n = .ok v) :
    v.IsJson d := by
  obtain ⟨i, rfl, hi⟩ | ⟨x, hx⟩ := numeralValue_eq_ok h
  · exact .int hi
  · exact isJson_finiteValue hx

/-- The three constants of both dialects and the three of the lenient one. -/
theorem constant?_mem {v : Value} (h : constant? d s = some (v, rest)) :
    v ∈ [.null, .bool true, .bool false] ∨
      d = .lenient ∧ v ∈ [.nan 0, .float (.infinite false), .float (.infinite true)] := by
  obtain ⟨w, hw, h⟩ := List.exists_of_findSome?_eq_some h
  obtain ⟨u, -, h⟩ := Option.map_eq_some_iff.mp h
  obtain ⟨rfl, -⟩ := Prod.mk.inj h
  rcases List.mem_append.mp hw with hw | hw
  · exact .inl (List.mem_map_of_mem hw)
  · cases d with
    | strict => cases hw
    | lenient => exact .inr ⟨rfl, List.mem_map_of_mem hw⟩

/-- A constant is read as a value that the dialect has, and an end of the text is left. -/
theorem constant?_sound {v : Value} (h : constant? d s = some (v, rest)) :
    rest <:+ s ∧ v.IsJson d := by
  constructor
  · obtain ⟨w, -, h⟩ := List.exists_of_findSome?_eq_some h
    obtain ⟨u, hu, h⟩ := Option.map_eq_some_iff.mp h
    obtain ⟨-, rfl⟩ := Prod.mk.inj h
    unfold afterWord? at hu
    split at hu
    · obtain rfl := Option.some.inj hu
      exact List.drop_suffix _ s
    · cases hu
  · obtain hv | ⟨rfl, hv⟩ := constant?_mem h
    · simp only [List.mem_cons, List.not_mem_nil, or_false] at hv
      obtain rfl | rfl | rfl := hv
      · exact .null
      · exact .bool true
      · exact .bool false
    · simp only [List.mem_cons, List.not_mem_nil, or_false] at hv
      obtain rfl | rfl | rfl := hv
      · exact .nan 0 rfl
      · exact .float fun _ _ => rfl
      · exact .float fun _ _ => rfl

/-- A constant or a number is a value of the dialect, and what follows it is a suffix. -/
theorem readScalar_sound {v : Value} (h : readScalar d s = .ok (v, rest)) :
    rest <:+ s ∧ v.IsJson d := by
  unfold readScalar at h
  split at h
  · rename_i hconstant
    obtain rfl := Except.ok.inj h
    exact constant?_sound hconstant
  · split at h
    · simp at h
    · rename_i n rest' hn
      obtain ⟨v', hv, h⟩ := Except.bind_eq_ok_iff.mp h
      obtain ⟨rfl, rfl⟩ := Prod.mk.inj (Except.ok.inj h)
      exact ⟨numeral?_suffix hn, isJson_numeralValue hv⟩

/-! ### Values -/

/-- The members of a text of a dialect make a dictionary of it. -/
theorem isJson_ofList {ms : Members} (hk : ∀ m ∈ ms, ∃ t, m.1 = .text t ∧ d.AdmitsText t)
    (h : ∀ m ∈ ms, m.2.IsJson d) : (Value.dict (Members.ofList ms)).IsJson d := by
  suffices hinv : (∀ m ∈ Members.ofList ms, ∃ t, m.1 = .text t ∧ d.AdmitsText t) ∧
      ((Members.ofList ms).map Prod.fst).Nodup ∧ ∀ m ∈ Members.ofList ms, m.2.IsJson d from
    .dict hinv.1 hinv.2.1 hinv.2.2
  unfold Members.ofList
  refine List.foldlRecOn ms _ (motive := fun acc : Members =>
    (∀ m ∈ acc, ∃ t, m.1 = .text t ∧ d.AdmitsText t) ∧ (acc.map Prod.fst).Nodup ∧
      ∀ m ∈ acc, m.2.IsJson d) ?_ ?_
  · exact ⟨List.forall_mem_nil _, List.nodup_nil, List.forall_mem_nil _⟩
  · rintro acc ⟨hacck, hnd, hacc⟩ m hm
    obtain ⟨key, hkey, hadmits⟩ := hk m hm
    refine ⟨?_, ?_, ?_⟩
    · intro n hn
      obtain hn | ⟨-, hnkey | ⟨n', hn', hnkey⟩⟩ := Members.mem_insert hn
      · exact hacck n hn
      · exact ⟨key, hnkey.trans hkey, hadmits⟩
      · obtain ⟨t, ht, htadmits⟩ := hacck n' hn'
        exact ⟨t, hnkey.symm.trans ht, htadmits⟩
    · rw [hkey]
      exact Members.nodup_keys_insert (fun n hn => (hacck n hn).imp fun _ ht => ht.1) hnd key m.2
    · intro n hn
      obtain hn | ⟨hv, -⟩ := Members.mem_insert hn
      · exact hacc n hn
      · rw [hv]
        exact h m hm

/-- With so much fuel, what the three readers read from a text of a dialect is of that dialect, and
what follows it is a suffix. -/
structure Sound (d : Dialect) (fuel : Nat) : Prop where
  /-- Values are of the dialect. -/
  value : ∀ depth s v rest, d.AdmitsText s → readValue d fuel depth s = .ok (v, rest) →
    rest <:+ s ∧ v.IsJson d
  /-- All items are. -/
  items : ∀ depth s items rest, d.AdmitsText s → readItems d fuel depth s = .ok (items, rest) →
    rest <:+ s ∧ ∀ v ∈ items, v.IsJson d
  /-- All members are, and their keys are texts of the dialect. -/
  members : ∀ depth s ms rest, d.AdmitsText s → readMembers d fuel depth s = .ok (ms, rest) →
    rest <:+ s ∧ (∀ m ∈ ms, ∃ t, m.1 = .text t ∧ d.AdmitsText t) ∧ ∀ m ∈ ms, m.2.IsJson d

/-- A value that is read is of the dialect if all is that is read with one unit of fuel less. -/
theorem Sound.value_succ {fuel : Nat} (ih : Sound d fuel) (depth : Nat) (s : Text) (v : Value)
    (rest : Text) (hs : d.AdmitsText s) (h : readValue d (fuel + 1) depth s = .ok (v, rest)) :
    rest <:+ s ∧ v.IsJson d := by
  cases s with
  | nil => cases h
  | cons c s =>
    have htail := admitsText_of_suffix (List.suffix_cons c s) hs
    rw [readValue] at h
    split at h
    · obtain ⟨⟨t, r⟩, ht, h⟩ := Except.bind_eq_ok_iff.mp h
      obtain ⟨rfl, rfl⟩ := Prod.mk.inj (Except.ok.inj h)
      obtain ⟨hsuffix, hadmits⟩ := readText_sound htail ht
      exact ⟨hsuffix.trans (List.suffix_cons c s), .text hadmits⟩
    split at h
    · split at h
      · split at h
        · simp at h
        · rename_i e u hu
          have hblank := suffix_of_skipBlank hu (List.suffix_cons c s)
          split at h
          · obtain ⟨rfl, rfl⟩ := Prod.mk.inj (Except.ok.inj h)
            exact ⟨(List.suffix_cons e u).trans hblank, .list (List.forall_mem_nil _)⟩
          · obtain ⟨⟨items, r⟩, hitems, h⟩ := Except.bind_eq_ok_iff.mp h
            obtain ⟨rfl, rfl⟩ := Prod.mk.inj (Except.ok.inj h)
            obtain ⟨hsuffix, hall⟩ :=
              ih.items _ _ _ _ (admitsText_of_suffix hblank hs) hitems
            exact ⟨hsuffix.trans hblank, .list hall⟩
      · simp at h
    split at h
    · split at h
      · split at h
        · simp at h
        · rename_i e u hu
          have hblank := suffix_of_skipBlank hu (List.suffix_cons c s)
          split at h
          · obtain ⟨rfl, rfl⟩ := Prod.mk.inj (Except.ok.inj h)
            exact ⟨(List.suffix_cons e u).trans hblank,
              .dict (List.forall_mem_nil _) List.nodup_nil (List.forall_mem_nil _)⟩
          · obtain ⟨⟨ms, r⟩, hms, h⟩ := Except.bind_eq_ok_iff.mp h
            obtain ⟨rfl, rfl⟩ := Prod.mk.inj (Except.ok.inj h)
            obtain ⟨hsuffix, hkeys, hall⟩ :=
              ih.members _ _ _ _ (admitsText_of_suffix hblank hs) hms
            exact ⟨hsuffix.trans hblank, isJson_ofList hkeys hall⟩
      · simp at h
    · exact readScalar_sound h

/-- So are items. -/
theorem Sound.items_succ {fuel : Nat} (ih : Sound d fuel) (depth : Nat) (s : Text)
    (items : List Value) (rest : Text) (hs : d.AdmitsText s)
    (h : readItems d (fuel + 1) depth s = .ok (items, rest)) :
    rest <:+ s ∧ ∀ v ∈ items, v.IsJson d := by
  rw [readItems] at h
  obtain ⟨⟨v, r⟩, hv, h⟩ := Except.bind_eq_ok_iff.mp h
  obtain ⟨hr, hjson⟩ := ih.value _ _ _ _ hs hv
  simp only at h
  split at h
  · simp at h
  · rename_i e u hu
    have htail := (List.suffix_cons e u).trans (suffix_of_skipBlank hu hr)
    split at h
    · obtain ⟨rfl, rfl⟩ := Prod.mk.inj (Except.ok.inj h)
      exact ⟨htail, List.forall_mem_singleton.mpr hjson⟩
    · split at h
      · obtain ⟨⟨vs, r'⟩, hvs, h⟩ := Except.bind_eq_ok_iff.mp h
        obtain ⟨rfl, rfl⟩ := Prod.mk.inj (Except.ok.inj h)
        have hnext := (skipBlank_suffix u).trans htail
        obtain ⟨hr', hall⟩ := ih.items _ _ _ _ (admitsText_of_suffix hnext hs) hvs
        exact ⟨hr'.trans hnext, List.forall_mem_cons.mpr ⟨hjson, hall⟩⟩
      · simp at h

/-- So are members, whose keys are texts that the dialect admits. -/
theorem Sound.members_succ {fuel : Nat} (ih : Sound d fuel) (depth : Nat) (s : Text)
    (ms : List (Value × Value)) (rest : Text) (hs : d.AdmitsText s)
    (h : readMembers d (fuel + 1) depth s = .ok (ms, rest)) :
    rest <:+ s ∧ (∀ m ∈ ms, ∃ t, m.1 = .text t ∧ d.AdmitsText t) ∧ ∀ m ∈ ms, m.2.IsJson d := by
  cases s with
  | nil => cases h
  | cons q s =>
    rw [readMembers] at h
    split at h
    · obtain ⟨⟨key, r⟩, hkey, h⟩ := Except.bind_eq_ok_iff.mp h
      obtain ⟨hr, hadmits⟩ := readText_sound (admitsText_of_suffix (List.suffix_cons q s) hs) hkey
      simp only at h
      split at h
      · simp at h
      · rename_i e u hu
        have hcolon := suffix_of_skipBlank hu (hr.trans (List.suffix_cons q s))
        split at h
        · obtain ⟨⟨v, r'⟩, hv, h⟩ := Except.bind_eq_ok_iff.mp h
          have hvalue := (skipBlank_suffix u).trans ((List.suffix_cons e u).trans hcolon)
          obtain ⟨hr', hjson⟩ := ih.value _ _ _ _ (admitsText_of_suffix hvalue hs) hv
          have hfirst : ∃ t, Value.text key = .text t ∧ d.AdmitsText t := ⟨key, rfl, hadmits⟩
          simp only at h
          split at h
          · simp at h
          · rename_i e' u' hu'
            have hblank := suffix_of_skipBlank hu' (hr'.trans hvalue)
            have htail := (List.suffix_cons e' u').trans hblank
            split at h
            · obtain ⟨rfl, rfl⟩ := Prod.mk.inj (Except.ok.inj h)
              exact ⟨htail, List.forall_mem_singleton.mpr hfirst, List.forall_mem_singleton.mpr hjson⟩
            · split at h
              · obtain ⟨⟨ns, r''⟩, hns, h⟩ := Except.bind_eq_ok_iff.mp h
                obtain ⟨rfl, rfl⟩ := Prod.mk.inj (Except.ok.inj h)
                have hnext := (skipBlank_suffix u').trans htail
                obtain ⟨hr'', hkeys, hall⟩ :=
                  ih.members _ _ _ _ (admitsText_of_suffix hnext hs) hns
                exact ⟨hr''.trans hnext, List.forall_mem_cons.mpr ⟨hfirst, hkeys⟩,
                  List.forall_mem_cons.mpr ⟨hjson, hall⟩⟩
              · simp at h
        · simp at h
    · simp at h

/-- **Reading is sound** with any amount of fuel. -/
theorem sound (d : Dialect) (fuel : Nat) : Sound d fuel := by
  induction fuel with
  | zero =>
    constructor
    · intro depth s v rest _ h
      cases h
    · intro depth s items rest _ h
      cases h
    · intro depth s ms rest _ h
      cases h
  | succ fuel ih => exact ⟨ih.value_succ, ih.items_succ, ih.members_succ⟩

/-! ### Documents -/

/-- What is read of a whole text is a value that the dialect has. -/
theorem isJson_of_read (hs : d.AdmitsText s) {v : Value} (h : Json.read d s = .ok v) :
    v.IsJson d := by
  obtain ⟨⟨v', rest⟩, hv, h⟩ := Except.bind_eq_ok_iff.mp h
  simp only at h
  split at h
  · obtain rfl := Except.ok.inj h
    exact ((sound d _).value _ _ _ _ (admitsText_of_suffix (skipBlank_suffix s) hs) hv).2
  · simp at h

/-- **What is read.** The value of a document in a dialect is one of that dialect. -/
theorem isJson_of_readSource {source v : Value} (h : readSource d source = .ok v) :
    v.IsJson d := by
  have hany {t : Text} : Dialect.lenient.AdmitsText t := fun hd => by cases hd
  unfold readSource at h
  split at h
  · split at h
    · rename_i ht
      exact isJson_of_read (fun _ => ht) h
    · simp at h
  · obtain ⟨t, ht, h⟩ := Except.bind_eq_ok_iff.mp h
    refine isJson_of_read (fun _ => ?_) h
    rw [sourceText] at ht
    split at ht
    · rename_i hdecode
      obtain rfl := Except.ok.inj ht
      exact Utf8.isScalar_of_decode hdecode
    · cases ht
  · simp at h
  · simp at h
  · obtain ⟨t, -, h⟩ := Except.bind_eq_ok_iff.mp h
    exact isJson_of_read hany h
  · split at h
    · simp at h
    · split at h
      · simp at h
      · exact isJson_of_read hany h

end Json

end StreamConsumer
