import Mathlib.Data.List.Basic
import StreamConsumer.Proofs.Text.Numeral
import StreamConsumer.Text.Quoted

/-!
# Quoted texts tell what they quote

What stands between quotes is read back code point by code point: `Quoted.first` undoes
`Quoted.escape` (`first_escape`), and the quote itself never begins an escape. So a quoted text,
whatever follows it, has one content (`ofText_append_inj`), and quoted texts with a separator between
neighbours are a list of one list of contents (`intercalate_ofText_inj`).
-/

namespace StreamConsumer

namespace Text

/-- The number that hexadecimal digits denote; any other code point counts as zero. -/
def hexValue (t : Text) : Nat := t.foldl (fun n c => 16 * n + c.hexDigit?.getD 0) 0

/-- There are as many digits as asked for. -/
theorem length_hexPadded (width n : Nat) : (hexPadded width n).length = width := by
  induction width generalizing n with
  | zero => rfl
  | succ width ih => rw [hexPadded, List.length_append, ih, List.length_singleton]

/-- A number is read back up to its digits beyond the width. -/
theorem hexValue_hexPadded (width n : Nat) : hexValue (hexPadded width n) = n % 16 ^ width := by
  induction width generalizing n with
  | zero => rw [Nat.pow_zero, Nat.mod_one, hexPadded, hexValue, List.foldl_nil]
  | succ width ih =>
    have hlast : hexValue (hexPadded width (n / 16) ++ [hexDigit n]) =
        16 * hexValue (hexPadded width (n / 16)) + n % 16 := by
      rw [hexValue, List.foldl_concat, hexDigit?_hexDigit]
      rfl
    rw [hexPadded, hlast, ih, Nat.pow_succ, Nat.mul_comm (16 ^ width), Nat.mod_mul]
    omega

/-- Joining texts is the joining of lists. -/
theorem joined_eq_intercalate (separator : Text) (ts : List Text) :
    joined separator ts = separator.intercalate ts := by
  induction ts with
  | nil => rfl
  | cons t ts ih =>
    cases ts with
    | nil => exact (List.append_nil t).symm
    | cons u ts =>
      rw [List.intercalate_cons_cons, ← ih]
      rfl

end Text

namespace Quoted

/-! ### Code points -/

/-- How many digits follow the letter of an escape by number. -/
def width? (c : CodePoint) : Option Nat :=
  if c = 0x78 then some 2 else if c = 0x75 then some 4 else if c = 0x55 then some 8 else none

/-- What any other code point stands for after a backslash. -/
def lettered (c : CodePoint) : CodePoint :=
  if c = 0x74 then 0x09 else if c = 0x6E then 0x0A else if c = 0x72 then 0x0D else c

/-- The code point that stands first between quotes, and what comes after it. -/
def first : Text → CodePoint × Text
  | [] => (0, [])
  | [c] => (c, [])
  | c :: d :: rest =>
    if c = 0x5C then
      match width? d with
      | some w => (Fin.ofNat _ (Text.hexValue (rest.take w)), rest.drop w)
      | none => (lettered d, rest)
    else (c, d :: rest)

variable {quote c : CodePoint} {rest rest' : Text}

/-- A code point other than the backslash stands for itself. -/
theorem first_cons (h : c ≠ 0x5C) (rest : Text) : first (c :: rest) = (c, rest) := by
  cases rest with
  | nil => rfl
  | cons d rest => exact if_neg h

/-- An escape by number is read back if the number has as many digits as its letter says. -/
theorem first_numeric {letter : CodePoint} {width : Nat} (hw : width? letter = some width)
    (hc : c.val < 16 ^ width) (rest : Text) :
    first (0x5C :: letter :: (Text.hexPadded width c.val ++ rest)) = (c, rest) := by
  have hlength := Text.length_hexPadded width c.val
  simp only [first, if_true, hw, List.take_left' hlength, List.drop_left' hlength,
    Text.hexValue_hexPadded, Nat.mod_eq_of_lt hc]
  exact congrArg (·, rest) (Fin.ofNat_val_eq_self c)

/-- A code point is read back from between the quotes. -/
theorem first_escape (hquote : quote = 0x27 ∨ quote = 0x22) (c : CodePoint) (rest : Text) :
    first (escape quote c ++ rest) = (c, rest) := by
  rw [escape]
  split
  · rename_i h
    obtain rfl | rfl := h
    · obtain rfl | rfl := hquote <;> rfl
    · rfl
  rename_i hquoted
  obtain ⟨-, hbackslash⟩ := not_or.mp hquoted
  split
  · rename_i h
    rw [h]
    rfl
  split
  · rename_i h
    rw [h]
    rfl
  split
  · rename_i h
    rw [h]
    rfl
  split
  · exact first_cons hbackslash rest
  rw [numeric]
  split
  · rename_i h
    exact first_numeric (show width? 0x78 = some 2 from rfl) h rest
  split
  · rename_i h
    exact first_numeric (show width? 0x75 = some 4 from rfl) h rest
  · have hc : c.val < 16 ^ 8 := Nat.lt_trans c.isLt (by decide)
    exact first_numeric (show width? 0x55 = some 8 from rfl) hc rest

/-- No code point between quotes begins with the quote. -/
theorem escape_append_ne_cons (hquote : quote = 0x27 ∨ quote = 0x22) (c : CodePoint)
    (rest rest' : Text) : escape quote c ++ rest ≠ quote :: rest' := by
  intro h
  have hbackslash : quote ≠ 0x5C := by rintro rfl; revert hquote; decide
  have hfirst := first_escape hquote c rest
  rw [h, first_cons hbackslash] at hfirst
  obtain ⟨rfl, -⟩ := Prod.mk.inj hfirst
  rw [escape, if_pos (.inl rfl)] at h
  exact hbackslash (List.cons.inj h).1.symm

/-! ### Texts -/

/-- The quote is an apostrophe or a double quote. -/
theorem quoteFor_cases (t : Text) : quoteFor t = 0x27 ∨ quoteFor t = 0x22 := by
  rw [quoteFor]
  split
  · exact .inr rfl
  · exact .inl rfl

/-- What stands before the closing quote has one content. -/
theorem flatMap_escape_inj (hquote : quote = 0x27 ∨ quote = 0x22) {s t : Text}
    (h : s.flatMap (escape quote) ++ quote :: rest = t.flatMap (escape quote) ++ quote :: rest') :
    s = t ∧ rest = rest' := by
  induction s generalizing t with
  | nil =>
    cases t with
    | nil => exact ⟨rfl, (List.cons.inj h).2⟩
    | cons d t =>
      rw [List.flatMap_cons, List.append_assoc] at h
      exact absurd h.symm (escape_append_ne_cons hquote d _ rest)
  | cons c s ih =>
    rw [List.flatMap_cons, List.append_assoc] at h
    cases t with
    | nil => exact absurd h (escape_append_ne_cons hquote c _ rest')
    | cons d t =>
      rw [List.flatMap_cons, List.append_assoc] at h
      have hfirst := congrArg first h
      rw [first_escape hquote, first_escape hquote] at hfirst
      obtain ⟨rfl, hs⟩ := Prod.mk.inj hfirst
      obtain ⟨rfl, hrest⟩ := ih hs
      exact ⟨rfl, hrest⟩

/-- A quoted text begins with its quote. -/
theorem ofText_append (t rest : Text) : ofText t ++ rest =
    quoteFor t :: (t.flatMap (escape (quoteFor t)) ++ quoteFor t :: rest) := by
  simp [ofText]

/-- **Quotation.** A quoted text has one content, and what follows it is known. -/
theorem ofText_append_inj {s t : Text} (h : ofText s ++ rest = ofText t ++ rest') :
    s = t ∧ rest = rest' := by
  rw [ofText_append, ofText_append] at h
  obtain ⟨hquote, hbody⟩ := List.cons.inj h
  rw [hquote] at hbody
  exact flatMap_escape_inj (quoteFor_cases t) hbody

/-! ### Lists of texts -/

/-- What follows the first of some quoted texts in brackets. -/
def listTail : List Text → Text
  | [] => [0x5D]
  | t :: ts => [0x2C, 0x20] ++ (ofText t ++ listTail ts)

/-- Quoted texts with commas between them and a bracket behind them are the first and its tail. -/
theorem intercalate_ofText_cons (t : Text) (ts : List Text) :
    List.intercalate (Text.ofString ", ") ((t :: ts).map ofText) ++ [0x5D] =
      ofText t ++ listTail ts := by
  have hseparator : Text.ofString ", " = [0x2C, 0x20] := rfl
  rw [hseparator]
  induction ts generalizing t with
  | nil => rw [List.map_singleton, List.intercalate_singleton, listTail]
  | cons u ts ih =>
    rw [List.map_cons, List.map_cons, List.intercalate_cons_cons, ← List.map_cons, List.append_assoc,
      ih, listTail, List.append_assoc]

/-- A tail is that of one list of contents. -/
theorem listTail_injective : Function.Injective listTail := by
  intro ss
  induction ss with
  | nil =>
    intro ts h
    cases ts with
    | nil => rfl
    | cons t ts => cases h
  | cons s ss ih =>
    intro ts h
    cases ts with
    | nil => cases h
    | cons t ts =>
      obtain ⟨rfl, hrest⟩ := ofText_append_inj (List.append_cancel_left h)
      rw [ih hrest]

/-- **Listing.** Quoted texts with commas between them and a bracket behind them list one list of
contents. -/
theorem intercalate_ofText_inj {ss ts : List Text}
    (h : List.intercalate (Text.ofString ", ") (ss.map ofText) ++ [0x5D] =
      List.intercalate (Text.ofString ", ") (ts.map ofText) ++ [0x5D]) : ss = ts := by
  -- an empty list shows its bracket where others show a quote
  have hfirst (t : Text) (rest : Text) : [0x5D] ≠ ofText t ++ rest := by
    intro h
    rw [ofText_append] at h
    obtain hquote | hquote := quoteFor_cases t <;> rw [hquote] at h <;> cases h
  cases ss with
  | nil =>
    cases ts with
    | nil => rfl
    | cons t ts =>
      rw [intercalate_ofText_cons] at h
      exact absurd h (hfirst t _)
  | cons s ss =>
    rw [intercalate_ofText_cons] at h
    cases ts with
    | nil => exact absurd h.symm (hfirst s _)
    | cons t ts =>
      rw [intercalate_ofText_cons] at h
      obtain ⟨rfl, hrest⟩ := ofText_append_inj h
      rw [listTail_injective hrest]

end Quoted

end StreamConsumer
