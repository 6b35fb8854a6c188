/-!
# Texts as lists of code points

A `Text` is a finite list of Unicode code points. A lone surrogate is a code point like any other
here: a text that holds one has no UTF-8 form, but it can still be compared, shown and escaped, so
the type keeps it and `CodePoint.IsScalar` says where it is excluded.

Decimal numerals are the one notation every other module prints and reads, so they live here:
`Text.ofNat` writes a number, `Text.digitsValue` reads a run of digits back.
-/

namespace StreamConsumer

/-- A Unicode code point; surrogates count. -/
abbrev CodePoint := Fin 0x110000

namespace CodePoint

/-- There are code points, so their numerals are taken modulo their number. -/
instance count_ne_zero : @NeZero Nat Zero.ofOfNat0 0x110000 := ⟨by decide⟩

/-- Every character is a code point. -/
def ofChar (c : Char) : CodePoint :=
  ⟨c.toNat, by
    rcases c.valid with h | h
    · exact Nat.lt_trans h (by decide)
    · exact h.2⟩

/-- The first half of a surrogate pair. -/
def IsHighSurrogate (c : CodePoint) : Prop := 0xD800 ≤ c.val ∧ c.val < 0xDC00

/-- The second half of a surrogate pair. -/
def IsLowSurrogate (c : CodePoint) : Prop := 0xDC00 ≤ c.val ∧ c.val < 0xE000

/-- A code point that stands for no character on its own. -/
def IsSurrogate (c : CodePoint) : Prop := 0xD800 ≤ c.val ∧ c.val < 0xE000

/-- A code point that is no surrogate: these are the ones UTF-8 can carry. -/
def IsScalar (c : CodePoint) : Prop := ¬ c.IsSurrogate

/-- Whether a code point is a first half can be decided. -/
instance (c : CodePoint) : Decidable c.IsHighSurrogate :=
  inferInstanceAs (Decidable (_ ∧ _))

/-- Whether a code point is a second half can be decided. -/
instance (c : CodePoint) : Decidable c.IsLowSurrogate :=
  inferInstanceAs (Decidable (_ ∧ _))

/-- Whether a code point is a surrogate can be decided. -/
instance (c : CodePoint) : Decidable c.IsSurrogate :=
  inferInstanceAs (Decidable (_ ∧ _))

/-- Whether UTF-8 can carry a code point can be decided. -/
instance (c : CodePoint) : Decidable c.IsScalar :=
  inferInstanceAs (Decidable (¬ _))

/-- The code point that a surrogate pair stands for. -/
def ofPair (high low : Nat) : CodePoint :=
  Fin.ofNat _ (0x10000 + (high - 0xD800) % 0x400 * 0x400 + (low - 0xDC00) % 0x400)

/-- The value of an ASCII decimal digit. -/
def digit? (c : CodePoint) : Option Nat :=
  if 0x30 ≤ c.val ∧ c.val ≤ 0x39 then some (c.val - 0x30) else none

/-- The value of an ASCII hexadecimal digit, in either case. -/
def hexDigit? (c : CodePoint) : Option Nat :=
  if 0x30 ≤ c.val ∧ c.val ≤ 0x39 then some (c.val - 0x30)
  else if 0x41 ≤ c.val ∧ c.val ≤ 0x46 then some (c.val - 0x37)
  else if 0x61 ≤ c.val ∧ c.val ≤ 0x66 then some (c.val - 0x57)
  else none

/-- An ASCII decimal digit. -/
def isDigit (c : CodePoint) : Bool := c.digit?.isSome

end CodePoint

/-- A text: code points in order. -/
abbrev Text := List CodePoint

namespace Text

/-- The code points of a string. -/
def ofString (s : String) : Text := s.toList.map CodePoint.ofChar

/-- A string stands for its code points where a text is expected. -/
instance : Coe String Text := ⟨ofString⟩

/-- A text that UTF-8 can carry: no code point of it is a surrogate. -/
def IsScalar (t : Text) : Prop := ∀ c ∈ t, c.IsScalar

/-- Whether UTF-8 can carry a text can be decided. -/
instance (t : Text) : Decidable t.IsScalar :=
  List.decidableBAll CodePoint.IsScalar t

/-! ### Decimal numerals -/

/-- A natural number in decimal, without leading zeros. -/
def ofNat (n : Nat) : Text := (Nat.toDigits 10 n).map CodePoint.ofChar

/-- An integer in decimal, with a minus sign where it is negative. -/
def ofInt : Int → Text
  | .ofNat n => ofNat n
  | .negSucc n => ofString "-" ++ ofNat (n + 1)

/-- A text brought to at least `width` code points by zeros on its left. -/
def padZero (width : Nat) (t : Text) : Text :=
  List.replicate (width - t.length) (0x30 : CodePoint) ++ t

/-- A natural number in decimal with at least `width` digits. -/
def ofNatPadded (width n : Nat) : Text := padZero width (ofNat n)

/-- The number that a run of ASCII digits denotes; any other code point counts as zero. -/
def digitsValue (t : Text) : Nat := t.foldl (fun n c => 10 * n + c.digit?.getD 0) 0

/-- A lower-case hexadecimal digit. -/
def hexDigit (n : Nat) : CodePoint :=
  Fin.ofNat _ (if n % 16 < 10 then 0x30 + n % 16 else 0x57 + n % 16)

/-- The last `width` hexadecimal digits of a number, in lower case. -/
def hexPadded : Nat → Nat → Text
  | 0, _ => []
  | width + 1, n => hexPadded width (n / 16) ++ [hexDigit n]

/-! ### Assembling texts -/

/-- Texts joined with a separator between neighbours. -/
def joined (separator : Text) : List Text → Text
  | [] => []
  | [t] => t
  | t :: ts => t ++ separator ++ joined separator ts

/-- Lexicographic order by code point. -/
def lt : Text → Text → Bool
  | [], [] => false
  | [], _ :: _ => true
  | _ :: _, [] => false
  | a :: s, b :: t => if a = b then lt s t else a.val < b.val

end Text

end StreamConsumer
