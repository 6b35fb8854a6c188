import Mathlib.Data.List.Chain
import StreamConsumer.Proofs.Text.Utf8

/-!
# Surrogate pairs given as two code points

A text may hold the two halves of a surrogate pair side by side, where another has the code point that
they stand for. They are different texts, but UTF-16 has the same code units for both.
`Text.joinPairs` makes the second of the first. A text in which no such halves meet is whole,
`Text.IsWhole`: joining makes texts whole (`isWhole_joinPairs`) and leaves them alone if they are
(`joinPairs_of_isWhole`).
-/

namespace StreamConsumer

namespace CodePoint

/-- Two code points are the halves of a surrogate pair. -/
def IsPair (c e : CodePoint) : Prop := c.IsHighSurrogate ∧ e.IsLowSurrogate

/-- Whether two code points are a pair can be decided. -/
instance (c e : CodePoint) : Decidable (c.IsPair e) := inferInstanceAs (Decidable (_ ∧ _))

variable {c e : CodePoint}

/-- A pair stands for a code point beyond the first plane. -/
theorem val_ofPair (h : c.IsPair e) : (ofPair c.val e.val).val =
    0x10000 + (c.val - 0xD800) * 0x400 + (e.val - 0xDC00) := by
  obtain ⟨⟨hc, hc'⟩, he, he'⟩ := h
  simp only [ofPair, Fin.ofNat]
  omega

/-- A code point that is no surrogate begins no pair. -/
theorem not_isPair_of_isScalar_left (h : c.IsScalar) : ¬ c.IsPair e := by
  rintro ⟨⟨hle, hlt⟩, -⟩
  exact h ⟨hle, by omega⟩

/-- A code point that is no surrogate ends no pair. -/
theorem not_isPair_of_isScalar_right (h : e.IsScalar) : ¬ c.IsPair e := by
  rintro ⟨-, hle, hlt⟩
  exact h ⟨by omega, hlt⟩

end CodePoint

namespace Text

/-- A text with the code point for every two neighbours that are a surrogate pair. -/
def joinPairs : Text → Text
  | [] => []
  | [c] => [c]
  | c :: e :: t => if c.IsPair e then .ofPair c.val e.val :: joinPairs t else c :: joinPairs (e :: t)

/-- No two neighbours are a surrogate pair. -/
def IsWhole (t : Text) : Prop := t.IsChain fun c e => ¬ c.IsPair e

/-- Whether a text has no pairs can be decided. -/
instance (t : Text) : Decidable t.IsWhole := inferInstanceAs (Decidable (List.IsChain _ t))

/-- A pair in front becomes the code point that it stands for. -/
theorem joinPairs_of_isPair {c e : CodePoint} (h : c.IsPair e) (t : Text) :
    joinPairs (c :: e :: t) = .ofPair c.val e.val :: joinPairs t := by
  rw [joinPairs, if_pos h]

/-- What begins no pair is kept. -/
theorem joinPairs_of_not_isPair {c e : CodePoint} (h : ¬ c.IsPair e) (t : Text) :
    joinPairs (c :: e :: t) = c :: joinPairs (e :: t) := by
  rw [joinPairs, if_neg h]

/-- Nothing is joined in a whole text. -/
theorem joinPairs_of_isWhole {t : Text} (h : t.IsWhole) : t.joinPairs = t := by
  induction h with
  | nil => rfl
  | singleton => rfl
  | cons_cons hce _ ih => rw [joinPairs_of_not_isPair hce, ih]

/-- A text joined starts as it did before, or with no half of a pair. -/
theorem head_joinPairs {c f : CodePoint} {t : Text} (h : f ∈ (joinPairs (c :: t)).head?) :
    f = c ∨ f.IsScalar := by
  cases t with
  | nil => exact .inl (Option.mem_some_iff.mp h).symm
  | cons e t =>
    by_cases hce : c.IsPair e
    · rw [joinPairs_of_isPair hce] at h
      rw [← Option.mem_some_iff.mp h]
      exact .inr (CodePoint.isScalar_ofPair _ _)
    · rw [joinPairs_of_not_isPair hce] at h
      exact .inl (Option.mem_some_iff.mp h).symm

/-- A text joined is whole. -/
theorem isWhole_joinPairs (t : Text) : t.joinPairs.IsWhole := by
  fun_induction joinPairs t with
  | case1 => exact .nil
  | case2 c => exact .singleton c
  | case3 c e t hce ih =>
    exact List.isChain_cons.mpr
      ⟨fun _ _ => CodePoint.not_isPair_of_isScalar_left (CodePoint.isScalar_ofPair _ _), ih⟩
  | case4 c e t hce ih =>
    refine List.isChain_cons.mpr ⟨fun f hf => ?_, ih⟩
    obtain rfl | hscalar := head_joinPairs hf
    · exact hce
    · exact CodePoint.not_isPair_of_isScalar_right hscalar

/-- A text without surrogates is whole. -/
theorem isWhole_of_isScalar {t : Text} (h : t.IsScalar) : t.IsWhole := by
  induction t with
  | nil => exact .nil
  | cons c t ih =>
    refine List.isChain_cons.mpr ⟨fun _ _ => ?_, ih fun k hk => h k (List.mem_cons_of_mem c hk)⟩
    exact CodePoint.not_isPair_of_isScalar_left (h c List.mem_cons_self)

end Text

end StreamConsumer
