import StreamConsumer.Text.Encoding

/-!
# UTF-8 read back

A text that UTF-8 can carry is read back from its bytes, `Utf8.decode_encode`, and no other text is
read where surrogates are refused, `Utf8.isScalar_of_decode`; where they are let through, it is read
just the same, `Utf8.decode_of_refusing`. The reader of bytes in
an unstated encoding finds it too, `Encoding.decode_of_utf8`: it takes well-formed UTF-8 for what it
is, unless the text starts with a byte order mark or has a zero among its first two code points.
-/

namespace StreamConsumer

/-- The numbers of no surrogate. -/
theorem CodePoint.isScalar_ofNat {n : Nat} (hn : n < 0x110000) (h : n < 0xD800 ∨ 0xE000 ≤ n) :
    CodePoint.IsScalar (Fin.ofNat _ n) := by
  intro hs
  simp only [CodePoint.IsSurrogate, Fin.ofNat, Nat.mod_eq_of_lt hn] at hs
  omega

/-- What a surrogate pair stands for is no surrogate. -/
theorem CodePoint.isScalar_ofPair (n m : Nat) : (ofPair n m).IsScalar :=
  isScalar_ofNat (by omega) (by omega)

namespace Utf8

/-! ### One form at a time -/

/-- A byte below 128 is read as a code point. -/
theorem decode_form1 (surrogates : Bool) {a : UInt8} (s : List UInt8) (h : a.toNat < 0x80) :
    decode surrogates (a :: s) = (decode surrogates s).map (Fin.ofNat _ a.toNat :: ·) := by
  rw [decode.eq_def]
  simp only [if_pos h]

/-- Two bytes of their form are read as a code point. -/
theorem decode_form2 (surrogates : Bool) {a b : UInt8} (s : List UInt8) (h : IsForm2 a b) :
    decode surrogates (a :: b :: s) =
      (decode surrogates s).map (Fin.ofNat _ (value2 a b) :: ·) := by
  have ha : ¬ a.toNat < 0x80 := by have := h.1; omega
  rw [decode.eq_def]
  simp only [if_neg ha, if_pos h]

/-- The lead byte of a longer sequence is beyond those of two bytes. -/
theorem not_isForm2 {a b : UInt8} (h : 0xE0 ≤ a.toNat) : ¬ IsForm2 a b := by
  intro h2
  have hlt := h2.2.1
  omega

/-- The lead byte of a sequence of four is beyond those of three bytes. -/
theorem not_isForm3 {surrogates : Bool} {a b c : UInt8} (h : 0xF0 ≤ a.toNat) :
    ¬ IsForm3 surrogates a b c := by
  intro h3
  have hlt := h3.2.1
  omega

/-- Three bytes of their form are read as a code point. -/
theorem decode_form3 {surrogates : Bool} {a b c : UInt8} (s : List UInt8)
    (h : IsForm3 surrogates a b c) :
    decode surrogates (a :: b :: c :: s) =
      (decode surrogates s).map (Fin.ofNat _ (value3 a b c) :: ·) := by
  have ha : ¬ a.toNat < 0x80 := by have := h.1; omega
  rw [decode.eq_def]
  simp only [if_neg ha, if_neg (not_isForm2 h.1), if_pos h]

/-- Four bytes of their form are read as a code point. -/
theorem decode_form4 (surrogates : Bool) {a b c d : UInt8} (s : List UInt8) (h : IsForm4 a b c d) :
    decode surrogates (a :: b :: c :: d :: s) =
      (decode surrogates s).map (Fin.ofNat _ (value4 a b c d) :: ·) := by
  have ha : ¬ a.toNat < 0x80 := by have := h.1; omega
  have h2 : ¬ IsForm2 a b := not_isForm2 (by have := h.1; omega)
  rw [decode.eq_def]
  simp only [if_neg ha, if_neg h2, if_neg (not_isForm3 h.1), if_pos h]

/-- A number below 256 fits a byte. -/
theorem toNat_ofNat_of_lt {n : Nat} (h : n < 0x100) : (UInt8.ofNat n).toNat = n := by
  simp [Nat.mod_eq_of_lt h]

/-- A code point is that of its number. -/
theorem ofNat_eq_of_val {c : CodePoint} {n : Nat} (h : n = c.val) : Fin.ofNat 0x110000 n = c := by
  subst h
  simp

/-! ### Round trip -/

/-- The bytes of one code point stand for it, whatever follows. -/
theorem decode_encodePoint_append {surrogates : Bool} {c : CodePoint}
    (hc : surrogates = true ∨ c.IsScalar) (s : List UInt8) :
    decode surrogates (encodePoint c ++ s) = (decode surrogates s).map (c :: ·) := by
  have hlt := c.isLt
  unfold encodePoint
  simp only
  split
  · rename_i h1
    have ha := toNat_ofNat_of_lt (n := c.val) (by omega)
    rw [List.singleton_append, decode_form1 _ _ (by omega), ofNat_eq_of_val ha]
  · rename_i h1
    split
    · rename_i h2
      have ha := toNat_ofNat_of_lt (n := 0xC0 + c.val / 0x40) (by omega)
      have hb := toNat_ofNat_of_lt (n := 0x80 + c.val % 0x40) (by omega)
      have hv : value2 (UInt8.ofNat (0xC0 + c.val / 0x40)) (UInt8.ofNat (0x80 + c.val % 0x40)) =
          c.val := by
        rw [value2, ha, hb]
        omega
      rw [List.cons_append, List.singleton_append, decode_form2, ofNat_eq_of_val hv]
      refine ⟨?_, ?_, ⟨?_, ?_⟩, ?_⟩ <;> omega
    · rename_i h2
      split
      · rename_i h3
        have ha := toNat_ofNat_of_lt (n := 0xE0 + c.val / 0x1000) (by omega)
        have hb := toNat_ofNat_of_lt (n := 0x80 + c.val / 0x40 % 0x40) (by omega)
        have hd := toNat_ofNat_of_lt (n := 0x80 + c.val % 0x40) (by omega)
        have hv : value3 (UInt8.ofNat (0xE0 + c.val / 0x1000))
            (UInt8.ofNat (0x80 + c.val / 0x40 % 0x40)) (UInt8.ofNat (0x80 + c.val % 0x40)) =
            c.val := by
          rw [value3, ha, hb, hd]
          omega
        rw [List.cons_append, List.cons_append, List.singleton_append, decode_form3,
          ofNat_eq_of_val hv]
        refine ⟨?_, ?_, ⟨?_, ?_⟩, ⟨?_, ?_⟩, ?_, ?_⟩
        case refine_8 =>
          rw [hv]
          rcases hc with hc | hc
          · exact .inl hc
          · right
            simp only [CodePoint.IsScalar, CodePoint.IsSurrogate] at hc
            omega
        all_goals omega
      · rename_i h3
        have ha := toNat_ofNat_of_lt (n := 0xF0 + c.val / 0x40000) (by omega)
        have hb := toNat_ofNat_of_lt (n := 0x80 + c.val / 0x1000 % 0x40) (by omega)
        have hd := toNat_ofNat_of_lt (n := 0x80 + c.val / 0x40 % 0x40) (by omega)
        have he := toNat_ofNat_of_lt (n := 0x80 + c.val % 0x40) (by omega)
        have hv : value4 (UInt8.ofNat (0xF0 + c.val / 0x40000))
            (UInt8.ofNat (0x80 + c.val / 0x1000 % 0x40)) (UInt8.ofNat (0x80 + c.val / 0x40 % 0x40))
            (UInt8.ofNat (0x80 + c.val % 0x40)) = c.val := by
          rw [value4, ha, hb, hd, he]
          omega
        rw [List.cons_append, List.cons_append, List.cons_append, List.singleton_append,
          decode_form4, ofNat_eq_of_val hv]
        refine ⟨?_, ?_, ⟨?_, ?_⟩, ⟨?_, ?_⟩, ⟨?_, ?_⟩, ?_, ?_⟩ <;> omega

/-- **UTF-8 read back.** The bytes of a text stand for it, unless it has surrogates and those are
refused. -/
theorem decode_encode {surrogates : Bool} {t : Text} (ht : surrogates = true ∨ t.IsScalar) :
    decode surrogates (encode t) = some t := by
  induction t with
  | nil => rfl
  | cons c t ih =>
    have hc : surrogates = true ∨ c.IsScalar := ht.imp_right fun h => h c List.mem_cons_self
    have ht' : surrogates = true ∨ Text.IsScalar t :=
      ht.imp_right fun h k hk => h k (List.mem_cons_of_mem c hk)
    rw [encode, List.flatMap_cons, decode_encodePoint_append hc, ← encode, ih ht']
    rfl

/-- Where surrogates are refused, what is decoded has none. -/
theorem isScalar_of_decode {s : List UInt8} {t : Text} (h : decode false s = some t) :
    t.IsScalar := by
  have hcons {n : Nat} {t : Text} (hn : n < 0x110000) (h : n < 0xD800 ∨ 0xE000 ≤ n)
      (ht : t.IsScalar) : Text.IsScalar (Fin.ofNat _ n :: t) :=
    List.forall_mem_cons.mpr ⟨CodePoint.isScalar_ofNat hn h, ht⟩
  fun_induction decode false s generalizing t with
  | case1 =>
    obtain rfl := Option.some.inj h
    exact List.forall_mem_nil _
  | case2 a s ha ih =>
    obtain ⟨t', ht', rfl⟩ := Option.map_eq_some_iff.mp h
    exact hcons (by omega) (by omega) (ih ht')
  | case4 a _ b s hform ih =>
    obtain ⟨t', ht', rfl⟩ := Option.map_eq_some_iff.mp h
    have hlt : value2 a b < 0x800 := by
      simp only [value2]
      omega
    exact hcons (by omega) (by omega) (ih ht')
  | case6 a _ b _ c s hform ih =>
    obtain ⟨t', ht', rfl⟩ := Option.map_eq_some_iff.mp h
    have hlt : value3 a b c < 0x10000 := by
      simp only [value3]
      omega
    obtain ⟨-, -, -, -, -, hsurrogate⟩ := hform
    exact hcons (by omega) (hsurrogate.resolve_left Bool.false_ne_true) (ih ht')
  | case8 a _ b _ c _ e s hform ih =>
    obtain ⟨t', ht', rfl⟩ := Option.map_eq_some_iff.mp h
    obtain ⟨-, -, -, -, -, hleast, hlt⟩ := hform
    exact hcons hlt (.inr (by omega)) (ih ht')
  | _ => cases h

/-- Where surrogates are let through, whatever else is decoded stays as it is. -/
theorem decode_of_refusing {s : List UInt8} {t : Text} (h : decode false s = some t) :
    decode true s = some t := by
  fun_induction decode false s generalizing t with
  | case1 => exact h
  | case2 a s ha ih =>
    obtain ⟨t', ht', rfl⟩ := Option.map_eq_some_iff.mp h
    rw [decode_form1 _ _ ha, ih ht', Option.map_some]
  | case4 a _ b s hform ih =>
    obtain ⟨t', ht', rfl⟩ := Option.map_eq_some_iff.mp h
    rw [decode_form2 _ _ hform, ih ht', Option.map_some]
  | case6 a _ b _ c s hform ih =>
    obtain ⟨t', ht', rfl⟩ := Option.map_eq_some_iff.mp h
    obtain ⟨hlead, hlead', hb, hc, hshort, -⟩ := hform
    rw [decode_form3 _ ⟨hlead, hlead', hb, hc, hshort, .inl rfl⟩, ih ht', Option.map_some]
  | case8 a _ b _ c _ e s hform ih =>
    obtain ⟨t', ht', rfl⟩ := Option.map_eq_some_iff.mp h
    rw [decode_form4 _ _ hform, ih ht', Option.map_some]
  | _ => cases h

/-! ### First bytes -/

/-- A well-formed sequence starts with an ASCII byte or with a lead byte and a tail. -/
theorem lead_of_decode {surrogates : Bool} {a : UInt8} {s : List UInt8} {t : Text}
    (h : decode surrogates (a :: s) = some t) :
    a.toNat < 0x80 ∨ a.toNat < 0xF8 ∧ ∃ b rest, s = b :: rest ∧ IsTail b := by
  rw [decode.eq_def] at h
  by_cases ha : a.toNat < 0x80
  · exact .inl ha
  · simp only [if_neg ha] at h
    rcases s with _ | ⟨b, s⟩
    · simp at h
    · by_cases h2 : IsForm2 a b
      · exact .inr ⟨by have := h2.2.1; omega, b, s, rfl, h2.2.2.1⟩
      · simp only [if_neg h2] at h
        rcases s with _ | ⟨c, s⟩
        · simp at h
        · by_cases h3 : IsForm3 surrogates a b c
          · exact .inr ⟨by have := h3.2.1; omega, b, c :: s, rfl, h3.2.2.1⟩
          · simp only [if_neg h3] at h
            rcases s with _ | ⟨d, s⟩
            · simp at h
            · by_cases h4 : IsForm4 a b c d
              · exact .inr ⟨h4.2.1, b, c :: d :: s, rfl, h4.2.2.1⟩
              · simp only [if_neg h4] at h
                cases h

/-- No well-formed sequence starts with a byte beyond the lead bytes. -/
theorem decode_of_le {surrogates : Bool} {a : UInt8} (ha : 0xF8 ≤ a.toNat) (s : List UInt8) :
    decode surrogates (a :: s) = none := by
  rcases h : decode surrogates (a :: s) with _ | t
  · rfl
  · rcases lead_of_decode h with h | ⟨h, -⟩ <;> omega

/-- The first of a list is among its first few. -/
theorem mem_take_of_head? {t : Text} {c : CodePoint} (h : t.head? = some c) (n : Nat) :
    c ∈ t.take (n + 1) := by
  cases t with
  | nil => cases h
  | cons k t =>
    obtain rfl : k = c := Option.some.inj h
    exact List.mem_cons_self

/-- A sequence that starts with a zero byte is the code point zero and more. -/
theorem head?_of_decode_zero {surrogates : Bool} {s : List UInt8} {t : Text}
    (h : decode surrogates (0 :: s) = some t) : t.head? = some 0 := by
  rw [decode_form1 _ _ (by decide)] at h
  obtain ⟨t', -, rfl⟩ := Option.map_eq_some_iff.mp h
  rfl

/-- A zero byte in the second place is the code point zero there. -/
theorem zero_mem_of_decode {surrogates : Bool} {a : UInt8} {s : List UInt8} {t : Text}
    (h : decode surrogates (a :: 0 :: s) = some t) : (0 : CodePoint) ∈ t.take 2 := by
  rcases lead_of_decode h with ha | ⟨-, b, rest, hb, htail⟩
  · rw [decode_form1 _ _ ha] at h
    obtain ⟨t', ht', rfl⟩ := Option.map_eq_some_iff.mp h
    exact List.mem_cons_of_mem _ (mem_take_of_head? (head?_of_decode_zero ht') 0)
  · obtain ⟨rfl, -⟩ := List.cons.inj hb
    exact absurd htail (by decide)

end Utf8

namespace Encoding

/-- Well-formed UTF-8 has no byte order mark in front, unless its text has. -/
theorem marked?_eq_none {s : List UInt8} {t : Text} (h : Utf8.decode true s = some t)
    (hmark : t.head? ≠ some 0xFEFF) (hzero : t.head? ≠ some 0) : marked? s = none := by
  unfold marked?
  split
  · exact absurd (Utf8.head?_of_decode_zero h) hzero
  · rw [Utf8.decode_of_le (by decide)] at h
    cases h
  · rw [Utf8.decode_of_le (by decide)] at h
    cases h
  · rw [Utf8.decode_of_le (by decide)] at h
    cases h
  · rw [Utf8.decode_form3 _ (by decide)] at h
    obtain ⟨t', -, rfl⟩ := Option.map_eq_some_iff.mp h
    exact absurd (by rfl) hmark
  · rfl

/-- Well-formed UTF-8 has no zero among its first two bytes, unless its text has. -/
theorem ofZeros_eq_utf8 {s : List UInt8} {t : Text} (h : Utf8.decode true s = some t)
    (hzero : (0 : CodePoint) ∉ t.take 2) : ofZeros s = utf8 := by
  have hfirst {r : List UInt8} (hr : Utf8.decode true (0 :: r) = some t) : False :=
    hzero (Utf8.mem_take_of_head? (Utf8.head?_of_decode_zero hr) 1)
  unfold ofZeros
  split
  · rename_i a b c d r
    have ha : a ≠ 0 := fun ha => hfirst (ha ▸ h)
    have hb : b ≠ 0 := fun hb => hzero (Utf8.zero_mem_of_decode (hb ▸ h))
    rw [if_neg ha, if_neg hb]
  · rename_i a b
    have ha : a ≠ 0 := fun ha => hfirst (ha ▸ h)
    have hb : b ≠ 0 := fun hb => hzero (Utf8.zero_mem_of_decode (hb ▸ h))
    rw [if_neg ha, if_neg hb]
  · rfl

/-- **Finding UTF-8.** Bytes that are well-formed UTF-8 are read as such, unless their text starts
with a byte order mark or has a zero among its first two code points. -/
theorem decode_of_utf8 {s : List UInt8} {t : Text} (h : Utf8.decode true s = some t)
    (hmark : t.head? ≠ some 0xFEFF) (hzero : (0 : CodePoint) ∉ t.take 2) :
    decode s = some t := by
  have hhead : t.head? ≠ some 0 := fun h0 => hzero (Utf8.mem_take_of_head? h0 1)
  have hd : detect s = (utf8, s) := by
    rw [detect, marked?_eq_none h hmark hhead, ofZeros_eq_utf8 h hzero]
    rfl
  rw [decode, hd]
  exact h

end Encoding

end StreamConsumer
