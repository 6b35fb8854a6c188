import StreamConsumer.Proofs.Json.Quotation
import StreamConsumer.Proofs.Json.Scalar

/-!
# Notations

`Json.ReadsAs` says that a dialect reads a text as a value, whatever follows it that cannot belong to a
numeral; the length of the text is fuel enough. `Json.IsNotation` says so of both dialects at once.
Constants, integers of 64 bits and texts without surrogates have such notations. What stands between
brackets is read piece by piece (`IsPiece`), so pieces joined with separators are read as what they are
taken for, `read_joined`. The pieces of a list are read as its items, those of a dictionary are a key and
what is read as the value each.
-/

namespace StreamConsumer

namespace Json

/-! ### Blanks -/

/-- What begins a line is blank. -/
theorem isBlank_of_mem_lineStart {s : JsonStyle} {depth : Nat} {c : CodePoint}
    (h : c ∈ lineStart s depth) : isBlank c = true := by
  unfold lineStart at h
  split at h
  · rcases List.mem_cons.mp h with rfl | h
    · decide
    · rw [List.eq_of_mem_replicate h]
      decide
  · cases h

/-- Blanks are skipped up to what is none. -/
theorem skipBlank_append {blanks : Text} (hb : ∀ c ∈ blanks, isBlank c = true) {c : CodePoint}
    (hc : isBlank c = false) (s : Text) : skipBlank (blanks ++ c :: s) = c :: s := by
  rw [skipBlank, List.dropWhile_append_of_pos hb, List.dropWhile_cons_of_neg (by simp [hc])]

/-- Nothing is skipped before what is not blank. -/
theorem skipBlank_cons {c : CodePoint} (hc : isBlank c = false) (s : Text) :
    skipBlank (c :: s) = c :: s :=
  List.dropWhile_cons_of_neg (by simp [hc])

/-- No blank belongs to a numeral. -/
theorem endsNumeral_append {blanks : Text} (hb : ∀ c ∈ blanks, isBlank c = true) {s : Text}
    (hs : EndsNumeral s) : EndsNumeral (blanks ++ s) := by
  cases blanks with
  | nil => exact hs
  | cons c blanks =>
    have hc := hb c List.mem_cons_self
    simp only [isBlank, Bool.or_eq_true, decide_eq_true_eq] at hc
    apply endsNumeral_cons
    rcases hc with ((rfl | rfl) | rfl) | rfl <;> decide

/-! ### Notations -/

/-- A text that a dialect reads as a value inside `depth` containers. -/
structure ReadsAs (d : Dialect) (t : Text) (depth : Nat) (v : Value) : Prop where
  /-- It starts with an ASCII code point that is neither a blank nor a closing bracket. -/
  head : ∃ c s, t = c :: s ∧ isBlank c = false ∧ c ≠ 0x5D ∧ c.val < 0x80
  /-- It is read as the value, whatever follows that cannot belong to a numeral. -/
  read : ∀ (fuel : Nat) (rest : Text), t.length ≤ fuel → EndsNumeral rest →
    readValue d fuel depth (t ++ rest) = .ok (v, rest)

/-- A text that both dialects read as a value inside `depth` containers. -/
structure IsNotation (t : Text) (depth : Nat) (v : Value) : Prop where
  /-- It starts with an ASCII code point that is neither a blank nor a closing bracket. -/
  head : ∃ c s, t = c :: s ∧ isBlank c = false ∧ c ≠ 0x5D ∧ c.val < 0x80
  /-- It can be sent. -/
  sendable : IsSendable t
  /-- It is read as the value, whatever follows that cannot belong to a numeral. -/
  read : ∀ (d : Dialect) (fuel : Nat) (rest : Text), t.length ≤ fuel → EndsNumeral rest →
    readValue d fuel depth (t ++ rest) = .ok (v, rest)

/-- A notation is read in either dialect. -/
theorem IsNotation.readsAs {t : Text} {depth : Nat} {v : Value} (h : IsNotation t depth v)
    (d : Dialect) : ReadsAs d t depth v := ⟨h.head, h.read d⟩

/-- A text that can be sent is a notation if each dialect reads it as the value. -/
theorem IsNotation.of_readsAs {t : Text} {depth : Nat} {v : Value} (hs : IsSendable t)
    (h : ∀ d, ReadsAs d t depth v) : IsNotation t depth v :=
  ⟨(h .strict).head, hs, fun d => (h d).read⟩

/-- What the reader makes of a text that starts like a scalar. -/
theorem readValue_scalar (d : Dialect) {fuel : Nat} (depth : Nat) {c : CodePoint} (s : Text)
    (hf : 0 < fuel) (hq : c ≠ 0x22) (hl : c ≠ 0x5B) (hd : c ≠ 0x7B) :
    readValue d fuel depth (c :: s) = readScalar d (c :: s) := by
  obtain ⟨fuel, rfl⟩ : ∃ k, fuel = k + 1 := ⟨fuel - 1, by omega⟩
  rw [readValue]
  simp only [if_neg hq, if_neg hl, if_neg hd]

/-- A scalar is a notation if `readScalar` takes it for the value. -/
theorem IsNotation.of_readScalar {c : CodePoint} {s : Text} {depth : Nat} {v : Value}
    (hc : isBlank c = false ∧ c.val < 0x80 ∧ c ∉ [0x22, 0x5B, 0x7B, 0x5D])
    (hs : IsSendable (c :: s))
    (h : ∀ d rest, EndsNumeral rest → readScalar d (c :: s ++ rest) = .ok (v, rest)) :
    IsNotation (c :: s) depth v := by
  obtain ⟨hblank, hlt, hq⟩ := hc
  simp only [List.mem_cons, List.not_mem_nil, or_false, not_or] at hq
  refine ⟨⟨c, s, rfl, hblank, hq.2.2.2, hlt⟩, hs, ?_⟩
  intro d fuel rest hf hr
  rw [List.length_cons] at hf
  rw [List.cons_append, readValue_scalar d depth _ (by omega) hq.1 hq.2.1 hq.2.2.1]
  exact h d rest hr

/-- The word for null is a notation. -/
theorem isNotation_null (depth : Nat) : IsNotation "null" depth .null :=
  .of_readScalar (by decide) (by decide) fun d rest _ => readScalar_null d rest

/-- The word for true is a notation. -/
theorem isNotation_true (depth : Nat) : IsNotation "true" depth (.bool true) :=
  .of_readScalar (by decide) (by decide) fun d rest _ => readScalar_true d rest

/-- The word for false is a notation. -/
theorem isNotation_false (depth : Nat) : IsNotation "false" depth (.bool false) :=
  .of_readScalar (by decide) (by decide) fun d rest _ => readScalar_false d rest

/-- The notation of an integer starts with a digit or a minus sign and has digits after it. -/
theorem ofInt_eq_cons (i : Int) :
    ∃ c s, Text.ofInt i = c :: s ∧ ∀ k ∈ c :: s, k.isDigit = true ∨ k = 0x2D := by
  cases i with
  | ofNat n =>
    obtain ⟨c, s, hs⟩ := List.exists_cons_of_ne_nil (Text.ofNat_ne_nil n)
    exact ⟨c, s, hs, fun k hk => .inl (Text.isDigit_of_mem_ofNat (hs ▸ hk))⟩
  | negSucc n =>
    refine ⟨0x2D, Text.ofNat (n + 1), rfl, ?_⟩
    intro k hk
    rcases List.mem_cons.mp hk with rfl | hk
    · exact .inr rfl
    · exact .inl (Text.isDigit_of_mem_ofNat hk)

/-- The numeral of an integer of 64 bits is a notation. -/
theorem isNotation_int (depth : Nat) {i : Int} (hi : FitsWord i) :
    IsNotation (Text.ofInt i) depth (.int i) := by
  obtain ⟨c, s, hs, hpoints⟩ := ofInt_eq_cons i
  have hread (d : Dialect) (rest : Text) (h : EndsNumeral rest) := readScalar_ofInt d hi h
  have hval : ∀ k ∈ c :: s, 0x30 ≤ k.val ∧ k.val ≤ 0x39 ∨ k.val = 0x2D := by
    intro k hk
    obtain hdigit | rfl := hpoints k hk
    · exact .inl (CodePoint.isDigit_iff.mp hdigit)
    · exact .inr rfl
  have hc := hval c List.mem_cons_self
  rw [hs] at hread ⊢
  refine .of_readScalar ⟨?_, by omega, ?_⟩ ?_ hread
  · simp only [isBlank, Bool.or_eq_false_iff, decide_eq_false_iff_not]
    refine ⟨⟨⟨?_, ?_⟩, ?_⟩, ?_⟩ <;> (rintro rfl; revert hc; decide)
  · simp only [List.mem_cons, List.not_mem_nil, or_false]
    rintro (rfl | rfl | rfl | rfl) <;> (revert hc; decide)
  · intro k hk
    have hk := hval k hk
    exact isTextPoint_of_lt (by omega) (by omega)

/-! ### Texts -/

/-- A text in quotation marks can be sent, if what follows can. -/
theorem isSendable_quoted (d : Dialect) {t : Text} (ht : t.IsScalar) {rest : Text}
    (hr : IsSendable rest) : IsSendable (0x22 :: t.flatMap (escape d) ++ 0x22 :: rest) := by
  intro k hk
  simp only [List.mem_append, List.mem_cons] at hk
  rcases hk with (rfl | hk) | rfl | hk
  · decide
  · exact isSendable_escaped d ht k hk
  · decide
  · exact hr k hk

/-- A text in quotation marks is read if what stands between them is. -/
theorem readsAs_text {d : Dialect} (depth : Nat) {quoted t : Text}
    (h : ∀ rest, readText d (quoted ++ 0x22 :: rest) = .ok (t, rest)) :
    ReadsAs d (0x22 :: quoted ++ [0x22]) depth (.text t) := by
  refine ⟨⟨0x22, _, rfl, by decide, by decide, by decide⟩, ?_⟩
  intro fuel rest hf _
  obtain ⟨fuel, rfl⟩ : ∃ k, fuel = k + 1 := ⟨fuel - 1, by simp at hf; omega⟩
  have hsplit : 0x22 :: quoted ++ [0x22] ++ rest = 0x22 :: (quoted ++ 0x22 :: rest) := by simp
  rw [hsplit, readValue]
  simp only [if_true, h]
  rfl

/-- A text without surrogates, escaped between quotation marks, is a notation. -/
theorem isNotation_text (d : Dialect) (depth : Nat) {t : Text} (ht : t.IsScalar) :
    IsNotation (0x22 :: t.flatMap (escape d) ++ [0x22]) depth (.text t) :=
  .of_readsAs (isSendable_quoted d ht (by simp [IsSendable])) fun d₂ =>
    readsAs_text depth (readText_written d d₂ ht)

/-! ### Pieces -/

/-- Joined texts start like the first one. -/
theorem exists_joined_eq_cons (separator rest : Text) (c : CodePoint) (t : Text) (ts : List Text) :
    ∃ s, Text.joined separator ((c :: t) :: ts) ++ rest = c :: s := by
  cases ts with
  | nil => exact ⟨t ++ rest, rfl⟩
  | cons u us => exact ⟨_, rfl⟩

/-- Joined pieces are the first one, a comma and the others. -/
theorem joined_cons_cons (blanks t u : Text) (us : List Text) :
    Text.joined ([0x2C] ++ blanks) (t :: u :: us) =
      t ++ 0x2C :: (blanks ++ Text.joined ([0x2C] ++ blanks) (u :: us)) := by
  simp [Text.joined]

section Pieces

variable {β : Type} {read : Nat → Text → Except ReadError (List β × Text)} {close : CodePoint}

/-- A text that a reader of many things up to a closing bracket takes for one of them. Each takes one
step of the fuel. -/
structure IsPiece (read : Nat → Text → Except ReadError (List β × Text)) (close : CodePoint)
    (t : Text) (b : β) : Prop where
  /-- It starts with neither a blank nor the closing bracket. -/
  head : ∃ c s, t = c :: s ∧ isBlank c = false ∧ c ≠ close
  /-- It is read up to what follows, and after a comma the reader goes on. -/
  step : ∀ (fuel : Nat) (blanks rest : Text) (c : CodePoint), t.length ≤ fuel →
    (∀ k ∈ blanks, isBlank k = true) → isBlank c = false → EndsNumeral (blanks ++ c :: rest) →
    read (fuel + 1) (t ++ (blanks ++ c :: rest)) =
      if c = close then .ok ([b], rest)
      else if c = 0x2C then do
        let (bs, rest) ← read fuel (skipBlank rest)
        return (b :: bs, rest)
      else .error .grammar

/-- A code point that can close what encloses pieces. -/
def IsClosing (c : CodePoint) : Prop :=
  isBlank c = false ∧ c ≠ 0x2C ∧ c.isDigit = false ∧ c ≠ 0x2E ∧ c ≠ 0x65 ∧ c ≠ 0x45

/-- Whether a code point closes a container can be decided. -/
instance (c : CodePoint) : Decidable (IsClosing c) := inferInstanceAs (Decidable (_ ∧ _))

/-- Pieces with separators between them are read one by one: there are at least as many code points as
pieces, so the fuel does not run out. -/
theorem read_joined (hclose : IsClosing close) {blanks closing : Text}
    (hb : ∀ c ∈ blanks, isBlank c = true) (hc : ∀ c ∈ closing, isBlank c = true)
    {pieces : List Text} {bs : List β} (h : List.Forall₂ (IsPiece read close) pieces bs)
    (hne : pieces ≠ []) (fuel : Nat) (rest : Text)
    (hf : (Text.joined ([0x2C] ++ blanks) pieces).length < fuel) :
    read fuel (Text.joined ([0x2C] ++ blanks) pieces ++ (closing ++ close :: rest)) =
      .ok (bs, rest) := by
  obtain ⟨hblank, hcomma, hend⟩ := hclose
  induction h generalizing fuel with
  | nil => exact absurd rfl hne
  | @cons t b ts bs ht hts ih =>
    obtain ⟨fuel, rfl⟩ : ∃ k, fuel = k + 1 := ⟨fuel - 1, by omega⟩
    cases hts with
    | nil =>
      rw [Text.joined] at hf ⊢
      rw [ht.step fuel closing rest close (by omega) hc hblank
        (endsNumeral_append hc (endsNumeral_cons hend)), if_pos rfl]
    | @cons u _ us _ hu hus =>
      obtain ⟨c, s, rfl, hcblank, -⟩ := hu.head
      obtain ⟨r, hr⟩ := exists_joined_eq_cons ([0x2C] ++ blanks) (closing ++ close :: rest) c s us
      rw [joined_cons_cons] at hf ⊢
      simp only [List.length_append, List.length_cons] at hf
      have hrest := ih (List.cons_ne_nil _ _) fuel (by omega)
      have hstep := ht.step fuel [] (blanks ++ c :: r) 0x2C (by omega) nofun (by decide)
        (endsNumeral_cons (by decide))
      rw [if_neg hcomma.symm, if_pos rfl, skipBlank_append hb hcblank, ← hr, hrest] at hstep
      rw [List.append_assoc, List.cons_append, List.append_assoc]
      exact hstep

end Pieces

/-! ### Lists -/

/-- What is read as an item is a piece of a list. -/
theorem ReadsAs.isPiece {d : Dialect} {t : Text} {depth : Nat} {v : Value} (h : ReadsAs d t depth v) :
    IsPiece (fun fuel => readItems d fuel depth) 0x5D t v := by
  obtain ⟨a, s, hs, ha, hclose, -⟩ := h.head
  refine ⟨⟨a, s, hs, ha, hclose⟩, ?_⟩
  intro fuel blanks rest c hf hb hc hend
  rw [readItems, h.read fuel _ hf hend]
  simp only [bind, Except.bind, skipBlank_append hb hc]

/-! ### Dictionaries -/

/-- A key, a colon and a notation of the value. -/
structure IsMember (s : JsonStyle) (depth : Nat) (piece : Text) (m : Value × Value) : Prop where
  /-- The key is a text in quotation marks. -/
  parts : ∃ (d : Dialect) (t w : Text), m.1 = .text t ∧ t.IsScalar ∧ IsNotation w depth m.2 ∧
    piece = 0x22 :: t.flatMap (escape d) ++ 0x22 :: (colon s ++ w)

/-- Between a key and its value stands a colon with blanks after it. -/
theorem colon_eq_cons (s : JsonStyle) :
    ∃ blanks, colon s = 0x3A :: blanks ∧ ∀ c ∈ blanks, isBlank c = true := by
  unfold colon
  split
  · exact ⟨[0x20], rfl, fun c hc => by rw [List.mem_singleton.mp hc]; decide⟩
  · exact ⟨[], rfl, by simp⟩

/-- A member can be sent. -/
theorem IsMember.sendable {s : JsonStyle} {depth : Nat} {piece : Text} {m : Value × Value}
    (h : IsMember s depth piece m) : IsSendable piece := by
  obtain ⟨d, t, w, -, ht, hw, rfl⟩ := h.parts
  apply isSendable_quoted d ht
  intro k hk
  rcases List.mem_append.mp hk with hk | hk
  · have hcolon : IsSendable (colon s) := by
      unfold colon
      split <;> decide
    exact hcolon k hk
  · exact hw.sendable k hk

/-- A key that is read and what is read as a value are a piece of a dictionary. -/
theorem ReadsAs.isPiece_member {d : Dialect} {depth : Nat} {quoted key w : Text} {v : Value}
    (hw : ReadsAs d w depth v) (s : JsonStyle)
    (hkey : ∀ rest, readText d (quoted ++ 0x22 :: rest) = .ok (key, rest)) :
    IsPiece (fun fuel => readMembers d fuel depth) 0x7D (0x22 :: quoted ++ 0x22 :: (colon s ++ w))
      (.text key, v) := by
  refine ⟨⟨0x22, _, rfl, by decide, by decide⟩, ?_⟩
  intro fuel blanks rest c hf hb hc hend
  obtain ⟨spaces, hcolon, hspaces⟩ := colon_eq_cons s
  obtain ⟨a, r, hr, ha, -⟩ := hw.head
  have hsplit : 0x22 :: quoted ++ 0x22 :: (colon s ++ w) ++ (blanks ++ c :: rest) =
      0x22 :: (quoted ++ 0x22 :: 0x3A :: (spaces ++ a :: (r ++ (blanks ++ c :: rest)))) := by
    simp [hcolon, hr]
  have hread := hw.read fuel (blanks ++ c :: rest) (by simp at hf; omega) hend
  rw [hr, List.cons_append] at hread
  rw [hsplit, readMembers]
  simp only [if_true, hkey, bind, Except.bind,
    skipBlank_cons (show isBlank 0x3A = false by decide), skipBlank_append hspaces ha, hread,
    skipBlank_append hb hc]

/-- A member is a piece of a dictionary. -/
theorem IsMember.isPiece {s : JsonStyle} {depth : Nat} {piece : Text} {m : Value × Value}
    (h : IsMember s depth piece m) (d : Dialect) :
    IsPiece (fun fuel => readMembers d fuel depth) 0x7D piece m := by
  obtain ⟨d', t, w, hk, ht, hw, rfl⟩ := h.parts
  obtain ⟨k, v⟩ := m
  subst hk
  exact (hw.readsAs d).isPiece_member s (readText_written d' d ht)

end Json

end StreamConsumer
