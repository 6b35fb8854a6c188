import Mathlib.Data.List.Lex
import Mathlib.Data.List.Nodup
import Mathlib.Order.Fin.Basic
import StreamConsumer.Proofs.Json.RoundTrip

/-!
# Members in the order of their keys

Keys that are texts are ordered as lists of code points (`Text.lt_iff`), which is a linear order. Items
in the order of their keys are the items they were made from, `byText_perm`, in ascending order,
`pairwise_byText`; so items under different keys come out alike whatever order they were given in,
**`byText_eq_of_perm`**. What belongs to a key takes no part in this: it may be changed before or
after, `byText_map`.

`Json.named` is how the writer keeps items under texts; it arranges them by these laws if it can write
the keys, `arrange_named`.
-/

namespace StreamConsumer

/-- The order of texts is that of lists of code points. -/
theorem Text.lt_iff {s t : Text} : s.lt t = true ↔ s < t := by
  induction s generalizing t with
  | nil => cases t <;> simp [Text.lt]
  | cons a s ih =>
    cases t with
    | nil => simp [Text.lt]
    | cons b t =>
      rw [Text.lt, List.cons_lt_cons_iff]
      split
      · rename_i hab
        simp [hab, ih]
      · rename_i hab
        simp [hab]

namespace KeyOrder

variable {α β : Type}

/-! ### Ascending keys -/

/-- An insertion adds the member and keeps the others. -/
theorem insertByText_perm (key : Text) (a : α) (l : List (Text × α)) :
    (insertByText key a l).Perm ((key, a) :: l) := by
  induction l with
  | nil => exact .refl _
  | cons p l ih =>
    rw [insertByText]
    split
    · exact .refl _
    · exact (ih.cons p).trans (.swap _ _ _)

/-- No item is lost or added. -/
theorem byText_perm (l : List (Text × α)) : (byText l).Perm l := by
  induction l with
  | nil => exact .refl _
  | cons p l ih =>
    obtain ⟨key, a⟩ := p
    exact (insertByText_perm key a (byText l)).trans (ih.cons _)

/-- An item is put where the keys before it are not greater and those after it are not less. -/
theorem pairwise_insertByText (key : Text) (a : α) {l : List (Text × α)}
    (h : l.Pairwise fun p q => p.1 ≤ q.1) :
    (insertByText key a l).Pairwise fun p q => p.1 ≤ q.1 := by
  induction l with
  | nil => exact List.pairwise_singleton _ _
  | cons p l ih =>
    obtain ⟨hp, hl⟩ := List.pairwise_cons.mp h
    rw [insertByText]
    split
    · rename_i hlt
      have hle : key ≤ p.1 := (Text.lt_iff.mp hlt).le
      refine List.pairwise_cons.mpr ⟨?_, h⟩
      intro q hq
      obtain rfl | hq := List.mem_cons.mp hq
      · exact hle
      · exact hle.trans (hp q hq)
    · rename_i hlt
      have hle : p.1 ≤ key := not_lt.mp (mt Text.lt_iff.mpr hlt)
      refine List.pairwise_cons.mpr ⟨?_, ih hl⟩
      intro q hq
      obtain rfl | hq := List.mem_cons.mp ((insertByText_perm key a l).mem_iff.mp hq)
      · exact hle
      · exact hp q hq

/-- The keys ascend. -/
theorem pairwise_byText (l : List (Text × α)) : (byText l).Pairwise fun p q => p.1 ≤ q.1 := by
  induction l with
  | nil => exact .nil
  | cons p l ih => exact pairwise_insertByText p.1 p.2 ih

/-- **One order.** Items under different keys come out alike, whatever order they were given in. -/
theorem byText_eq_of_perm {l l' : List (Text × α)} (hnd : (l.map Prod.fst).Nodup)
    (h : l.Perm l') : byText l = byText l' := by
  have hl := byText_perm l
  have hl' := (byText_perm l').trans h.symm
  refine List.Perm.eq_of_pairwise ?_ (pairwise_byText l) (pairwise_byText l') (hl.trans hl'.symm)
  intro p q hp hq hpq hqp
  exact List.inj_on_of_nodup_map hnd (hl.mem_iff.mp hp) (hl'.mem_iff.mp hq) (le_antisymm hpq hqp)

/-! ### What belongs to the keys -/

/-- An insertion looks at the keys alone. -/
theorem insertByText_map (f : Text × α → β) (p : Text × α) (l : List (Text × α)) :
    insertByText p.1 (f p) (l.map fun q => (q.1, f q)) =
      (insertByText p.1 p.2 l).map fun q => (q.1, f q) := by
  induction l with
  | nil => rfl
  | cons q l ih =>
    rw [List.map_cons, insertByText, insertByText, ih]
    split <;> rfl

/-- What belongs to the keys may be changed before or after. -/
theorem byText_map (f : Text × α → β) (l : List (Text × α)) :
    byText (l.map fun p => (p.1, f p)) = (byText l).map fun p => (p.1, f p) := by
  induction l with
  | nil => rfl
  | cons p l ih =>
    rw [List.map_cons, byText, ih]
    exact insertByText_map f p (byText l)

end KeyOrder

namespace Json

variable {α : Type}

/-! ### Items under texts -/

/-- Items under texts, as the writer has them. -/
def named (l : List (Text × α)) : List (Value × α) := l.map fun p => (.text p.1, p.2)

/-- Named members are named one by one. -/
theorem named_cons (p : Text × α) (l : List (Text × α)) :
    named (p :: l) = (.text p.1, p.2) :: named l := rfl

/-- Named members have texts for keys. -/
theorem textKeys?_named (l : List (Text × α)) :
    textKeys? (named l) = some (l.map fun p => (p.1, .text p.1, p.2)) := by
  induction l with
  | nil => rfl
  | cons p l ih =>
    rw [named_cons, textKeys?, ih]
    rfl

/-- Items in order take their keys along. -/
theorem map_snd_byText (l : List (Text × α)) :
    (KeyOrder.byText (l.map fun p => (p.1, Value.text p.1, p.2))).map Prod.snd =
      named (KeyOrder.byText l) := by
  rw [KeyOrder.byText_map fun p => (Value.text p.1, p.2), List.map_map]
  rfl

/-- Keys that can be written are no reason to stop. -/
theorem forM_writeKey_named (d : Dialect) {l : List (Text × α)} (h : ∀ p ∈ l, p.1.IsScalar) :
    ((named l).forM fun m => discard (writeKey d m.1)) = .ok () := by
  induction l with
  | nil => rfl
  | cons p l ih =>
    obtain ⟨hp, hl⟩ := List.forall_mem_cons.mp h
    rw [named_cons, List.forM, writeKey_text, writeText_of_isScalar d hp]
    exact ih hl

/-- Items under texts without surrogates are arranged by code point. -/
theorem arrange_named (d : Dialect) {s : JsonStyle} (hs : s.sorted = true) {l : List (Text × α)}
    (h : ∀ p ∈ l, p.1.IsScalar) : arrange d s (named l) = .ok (named (KeyOrder.byText l)) := by
  rw [arrange, if_pos hs, textKeys?_named]
  simp only [map_snd_byText]
  split
  · rw [forM_writeKey_named d h]
    rfl
  · rfl

end Json

end StreamConsumer
