import StreamConsumer.Json.Reader
import StreamConsumer.Json.Writer
import StreamConsumer.Proofs.Text.Numeral

/-!
# Strings in quotation marks, read back

A text without surrogates that one dialect wrote in quotation marks is read back by either dialect,
`readText_written`. A code point is written in one of four forms (`EscapeForm`), and everything here
is shown for each form once: the pieces as which it is read, what these spell, and that it has
neither surrogates nor zeros. A pair of escapes by number is written for a code point beyond the first plane only, so
the escapes of two neighbours are never taken for such a pair: neither of them is a surrogate.
-/

namespace StreamConsumer

namespace Json

/-! ### One piece at a time -/

/-- A piece in front of what the rest of a string has. -/
def pieceBefore (p : Piece) (r : List Piece × Text) : List Piece × Text := (p :: r.1, r.2)

/-- A code point that needs no escape is a piece of its own. -/
theorem pieces?_plain {c : CodePoint} (s : Text) (hq : c ≠ 0x22) (hc : ¬ c.val < 0x20)
    (hb : c ≠ 0x5C) : pieces? (c :: s) = (pieces? s).map (pieceBefore (.plain c)) := by
  rw [pieces?.eq_def]
  simp only [if_neg hq, if_neg hc, if_neg hb]
  cases pieces? s <;> rfl

/-- A letter after a backslash is read as what it stands for. -/
theorem pieces?_letter {e c : CodePoint} (s : Text) (h : letterEscape? e = some c) :
    pieces? (0x5C :: e :: s) = (pieces? s).map (pieceBefore (.plain c)) := by
  have he : e ≠ 0x75 := by
    rintro rfl
    rw [show letterEscape? 0x75 = none by decide] at h
    cases h
  rw [pieces?.eq_def]
  simp only [if_neg he, h, show ((0x5C : CodePoint) = 0x22) = False by decide,
    show ((0x5C : CodePoint).val < 0x20) = False by decide, if_false, if_true]
  cases pieces? s <;> rfl

/-- Four hexadecimal digits are read as the number that they were written for. -/
theorem hex4?_hexDigit {n : Nat} (h : n < 0x10000) :
    hex4? (Text.hexDigit (n / 16 / 16 / 16)) (Text.hexDigit (n / 16 / 16)) (Text.hexDigit (n / 16))
      (Text.hexDigit n) = some n := by
  simp only [hex4?, Text.hexDigit?_hexDigit, Option.bind_eq_bind, Option.bind_some, Option.pure_def,
    Option.some.injEq]
  omega

/-- An escape by number is read as its unit. -/
theorem pieces?_unitEscape {n : Nat} (s : Text) (h : n < 0x10000) :
    pieces? (unitEscape n ++ s) = (pieces? s).map (pieceBefore (.unit n)) := by
  have hu : unitEscape n ++ s = 0x5C :: 0x75 :: Text.hexDigit (n / 16 / 16 / 16) ::
      Text.hexDigit (n / 16 / 16) :: Text.hexDigit (n / 16) :: Text.hexDigit n :: s := rfl
  rw [hu, pieces?.eq_def]
  simp only [show ((0x5C : CodePoint) = 0x22) = False by decide,
    show ((0x5C : CodePoint).val < 0x20) = False by decide, if_false, if_true, hex4?_hexDigit h]
  cases pieces? s <;> rfl

/-! ### How a code point is written -/

/-- The escapes of a code point, each with the pieces as which it is read. -/
inductive EscapeForm (c : CodePoint) : Text → List Piece → Prop where
  /-- A backslash and a letter. -/
  | letter {e : CodePoint} (h : letterEscape? e = some c) : EscapeForm c [0x5C, e] [.plain c]
  /-- The code point itself. -/
  | raw (hq : c ≠ 0x22) (hc : ¬ c.val < 0x20) (hb : c ≠ 0x5C) : EscapeForm c [c] [.plain c]
  /-- Its number. -/
  | unit (h : c.val < 0x10000) : EscapeForm c (unitEscape c.val) [.unit c.val]
  /-- The numbers of a surrogate pair. -/
  | pair (h : 0x10000 ≤ c.val) :
    EscapeForm c (unitEscape (0xD800 + (c.val - 0x10000) / 0x400) ++
        unitEscape (0xDC00 + (c.val - 0x10000) % 0x400))
      [.unit (0xD800 + (c.val - 0x10000) / 0x400), .unit (0xDC00 + (c.val - 0x10000) % 0x400)]

/-- Both dialects write a code point in one of these forms. -/
theorem exists_escapeForm (d : Dialect) (c : CodePoint) : ∃ ps, EscapeForm c (escape d c) ps := by
  unfold escape
  by_cases h22 : c = 0x22
  · subst h22
    exact ⟨_, .letter (e := 0x22) (by decide)⟩
  by_cases h5C : c = 0x5C
  · subst h5C
    exact ⟨_, .letter (e := 0x5C) (by decide)⟩
  by_cases h0A : c = 0x0A
  · subst h0A
    exact ⟨_, .letter (e := 0x6E) (by decide)⟩
  by_cases h0D : c = 0x0D
  · subst h0D
    exact ⟨_, .letter (e := 0x72) (by decide)⟩
  by_cases h09 : c = 0x09
  · subst h09
    exact ⟨_, .letter (e := 0x74) (by decide)⟩
  by_cases h0C : c = 0x0C
  · subst h0C
    exact ⟨_, .letter (e := 0x66) (by decide)⟩
  by_cases h08 : c = 0x08
  · subst h08
    exact ⟨_, .letter (e := 0x62) (by decide)⟩
  simp only [h22, h5C, h0A, h0D, h09, h0C, h08, if_false]
  split
  · exact ⟨_, .unit (by omega)⟩
  · rename_i hctl
    split
    · exact ⟨_, .raw h22 hctl h5C⟩
    · split
      · exact ⟨_, .unit (by assumption)⟩
      · exact ⟨_, .pair (by omega)⟩

/-- An escape is read as its pieces. -/
theorem EscapeForm.pieces?_append {c : CodePoint} {t : Text} {ps : List Piece}
    (h : EscapeForm c t ps) (s : Text) :
    pieces? (t ++ s) = (pieces? s).map fun r => (ps ++ r.1, r.2) := by
  have hlt := c.isLt
  cases h with
  | letter h => exact pieces?_letter s h
  | raw hq hc hb => exact pieces?_plain s hq hc hb
  | unit h => exact pieces?_unitEscape s h
  | pair h =>
    rw [List.append_assoc, pieces?_unitEscape _ (by omega), pieces?_unitEscape _ (by omega),
      Option.map_map]
    rfl

/-! ### What the pieces spell -/

/-- An escape of a scalar stands for itself, whatever follows. -/
theorem spell?_unit (d : Dialect) {n : Nat} (ps : List Piece) (h : ¬ (0xD800 ≤ n ∧ n < 0xE000)) :
    spell? d (.unit n :: ps) = (spell? d ps).map (Fin.ofNat _ n :: ·) := by
  have hl : lone? d n = some (Fin.ofNat _ n) := by
    rw [lone?, if_neg (fun hd => h hd.2)]
  rw [spell?.eq_def]
  simp only
  split
  · rw [if_neg (by omega), hl]
    cases spell? d _ <;> rfl
  · rw [hl]
    cases spell? d ps <;> rfl

/-- A high and a low surrogate in a row are one code point. -/
theorem spell?_pair (d : Dialect) {n m : Nat} (ps : List Piece) (hn : 0xD800 ≤ n ∧ n < 0xDC00)
    (hm : 0xDC00 ≤ m ∧ m < 0xE000) :
    spell? d (.unit n :: .unit m :: ps) = (spell? d ps).map (CodePoint.ofPair n m :: ·) := by
  rw [spell?.eq_def]
  simp only [if_pos (show 0xD800 ≤ n ∧ n < 0xDC00 ∧ 0xDC00 ≤ m ∧ m < 0xE000 from
    ⟨hn.1, hn.2, hm.1, hm.2⟩)]

/-- The surrogates of a code point beyond the first plane stand for it. -/
theorem ofPair_surrogates {c : CodePoint} (h : 0x10000 ≤ c.val) :
    CodePoint.ofPair (0xD800 + (c.val - 0x10000) / 0x400) (0xDC00 + (c.val - 0x10000) % 0x400) =
      c := by
  have hlt := c.isLt
  apply Fin.ext
  simp only [CodePoint.ofPair, Fin.ofNat]
  omega

/-- The pieces of a scalar spell it, whatever follows. -/
theorem EscapeForm.spell?_append {c : CodePoint} {t : Text} {ps : List Piece}
    (h : EscapeForm c t ps) (hc : c.IsScalar) (d : Dialect) (qs : List Piece) :
    spell? d (ps ++ qs) = (spell? d qs).map (c :: ·) := by
  have hlt := c.isLt
  cases h with
  | letter h => rfl
  | raw hq hc hb => rfl
  | unit h =>
    rw [List.singleton_append, spell?_unit d qs hc, Fin.ofNat_val_eq_self]
  | pair h =>
    rw [List.cons_append, List.singleton_append, spell?_pair d qs (by omega) (by omega),
      ofPair_surrogates h]

/-! ### Round trip -/

/-- The escapes of a text without surrogates, up to the closing quotation mark, are read as pieces
that spell it. -/
theorem exists_pieces?_escaped (d₁ : Dialect) {t : Text} (ht : t.IsScalar) (rest : Text) :
    ∃ ps, pieces? (t.flatMap (escape d₁) ++ 0x22 :: rest) = some (ps, rest) ∧
      ∀ d₂, spell? d₂ ps = some t := by
  induction t with
  | nil =>
    refine ⟨[], ?_, fun _ => rfl⟩
    rw [pieces?.eq_def]
    rfl
  | cons c t ih =>
    obtain ⟨qs, hqs, hspell⟩ := ih fun k hk => ht k (List.mem_cons_of_mem c hk)
    obtain ⟨ps, hps⟩ := exists_escapeForm d₁ c
    refine ⟨ps ++ qs, ?_, fun d₂ => ?_⟩
    · rw [List.flatMap_cons, List.append_assoc, hps.pieces?_append, hqs]
      rfl
    · rw [hps.spell?_append (ht c List.mem_cons_self), hspell]
      rfl

/-- Every dialect has a notation for a text without surrogates. -/
theorem writeText_of_isScalar (d : Dialect) {t : Text} (ht : t.IsScalar) :
    writeText d t = .ok (0x22 :: t.flatMap (escape d) ++ [0x22]) := by
  rw [writeText, if_pos (.inr ht)]
  rfl

/-- **Strings read back.** What one dialect wrote after the opening quotation mark is read by either
dialect as the text it was written for. -/
theorem readText_written (d₁ d₂ : Dialect) {t : Text} (ht : t.IsScalar) (rest : Text) :
    readText d₂ (t.flatMap (escape d₁) ++ 0x22 :: rest) = .ok (t, rest) := by
  obtain ⟨ps, hps, hspell⟩ := exists_pieces?_escaped d₁ ht rest
  rw [readText, hps]
  simp only [hspell d₂]

/-! ### Code points of JSON text -/

/-- A code point that both dialects put into text: no surrogate and no zero, so that the text can be
sent as bytes and found again without a word on their encoding. -/
def IsTextPoint (c : CodePoint) : Prop := c.IsScalar ∧ c ≠ 0

/-- Whether a code point can be sent can be decided. -/
instance (c : CodePoint) : Decidable (IsTextPoint c) := inferInstanceAs (Decidable (_ ∧ _))

/-- A text of such code points. -/
def IsSendable (t : Text) : Prop := ∀ c ∈ t, IsTextPoint c

/-- Whether a text can be sent can be decided. -/
instance (t : Text) : Decidable (IsSendable t) := List.decidableBAll IsTextPoint t

/-- ASCII is text, its zero apart. -/
theorem isTextPoint_of_lt {c : CodePoint} (h0 : 0 < c.val) (h : c.val < 0x80) : IsTextPoint c := by
  constructor
  · intro hs
    have := hs.1
    omega
  · rintro rfl
    exact absurd h0 (by decide)

/-- A hexadecimal digit can be sent in a text. -/
theorem isTextPoint_hexDigit (n : Nat) : IsTextPoint (Text.hexDigit n) := by
  have key : ∀ k : Fin 16, IsTextPoint (Text.hexDigit k.val) := by decide
  have h := key ⟨n % 16, Nat.mod_lt n (by decide)⟩
  rwa [show Text.hexDigit (n % 16) = Text.hexDigit n by simp [Text.hexDigit]] at h

/-- So can an escape by number. -/
theorem isSendable_unitEscape (n : Nat) : IsSendable (unitEscape n) := by
  intro k hk
  have hu : unitEscape n = 0x5C :: 0x75 :: Text.hexPadded 4 n := rfl
  simp only [hu, Text.hexPadded_four, List.mem_cons, List.not_mem_nil, or_false] at hk
  rcases hk with rfl | rfl | rfl | rfl | rfl | rfl
  · decide
  · decide
  all_goals exact isTextPoint_hexDigit _

/-- Letters that stand for escapes are ASCII. -/
theorem letter_lt_of_letterEscape? {e c : CodePoint} (h : letterEscape? e = some c) :
    0 < e.val ∧ e.val < 0x80 := by
  unfold letterEscape? at h
  split at h
  · rename_i he
    rcases he with rfl | rfl | rfl <;> decide
  · repeat' split at h
    all_goals first | (subst_vars; decide) | simp at h

/-- So can any form of a code point that is no surrogate. -/
theorem EscapeForm.isSendable {c : CodePoint} {t : Text} {ps : List Piece} (h : EscapeForm c t ps)
    (hc : c.IsScalar) : IsSendable t := by
  intro k hk
  cases h with
  | letter h =>
    obtain ⟨he0, hlt⟩ := letter_lt_of_letterEscape? h
    rcases List.mem_cons.mp hk with rfl | hk
    · decide
    · rw [List.mem_singleton.mp hk]
      exact isTextPoint_of_lt he0 hlt
  | raw _ hctl _ =>
    rw [List.mem_singleton.mp hk]
    refine ⟨hc, ?_⟩
    rintro rfl
    exact hctl (by decide)
  | unit => exact isSendable_unitEscape _ k hk
  | pair => rcases List.mem_append.mp hk with hk | hk <;> exact isSendable_unitEscape _ k hk

/-- The escapes of a text without surrogates can be sent. -/
theorem isSendable_escaped (d : Dialect) {t : Text} (ht : t.IsScalar) :
    IsSendable (t.flatMap (escape d)) := by
  intro k hk
  obtain ⟨c, hc, hk⟩ := List.mem_flatMap.mp hk
  obtain ⟨ps, hps⟩ := exists_escapeForm d c
  exact hps.isSendable (ht c hc) k hk

end Json

end StreamConsumer
