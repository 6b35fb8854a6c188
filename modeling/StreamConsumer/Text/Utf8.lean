import StreamConsumer.Text.CodePoint

/-!
# UTF-8

`Utf8.encode` writes every code point in the shortest of the four forms; `Utf8.decode` accepts
exactly the shortest forms, below `0x110000`. The three-byte form of a surrogate is well shaped but
belongs to no character: whether `decode` lets it through is its first argument.
-/

namespace StreamConsumer.Utf8

/-- The bytes of one code point. -/
def encodePoint (c : CodePoint) : List UInt8 :=
  let n := c.val
  if n < 0x80 then [UInt8.ofNat n]
  else if n < 0x800 then [UInt8.ofNat (0xC0 + n / 0x40), UInt8.ofNat (0x80 + n % 0x40)]
  else if n < 0x10000 then
    [UInt8.ofNat (0xE0 + n / 0x1000), UInt8.ofNat (0x80 + n / 0x40 % 0x40),
      UInt8.ofNat (0x80 + n % 0x40)]
  else
    [UInt8.ofNat (0xF0 + n / 0x40000), UInt8.ofNat (0x80 + n / 0x1000 % 0x40),
      UInt8.ofNat (0x80 + n / 0x40 % 0x40), UInt8.ofNat (0x80 + n % 0x40)]

/-- The bytes of a text. -/
def encode (t : Text) : List UInt8 := t.flatMap encodePoint

/-! ### Decoding -/

/-- A byte that continues a sequence. -/
def IsTail (b : UInt8) : Prop := 0x80 ≤ b.toNat ∧ b.toNat < 0xC0

/-- Whether a byte is such can be decided. -/
instance (b : UInt8) : Decidable (IsTail b) := inferInstanceAs (Decidable (_ ∧ _))

/-- The number in a two-byte sequence. -/
def value2 (a b : UInt8) : Nat := a.toNat % 0x20 * 0x40 + b.toNat % 0x40

/-- The number in a three-byte sequence. -/
def value3 (a b c : UInt8) : Nat :=
  a.toNat % 0x10 * 0x1000 + b.toNat % 0x40 * 0x40 + c.toNat % 0x40

/-- The number in a four-byte sequence. -/
def value4 (a b c d : UInt8) : Nat :=
  a.toNat % 8 * 0x40000 + b.toNat % 0x40 * 0x1000 + c.toNat % 0x40 * 0x40 + d.toNat % 0x40

/-- A two-byte sequence in shortest form. -/
def IsForm2 (a b : UInt8) : Prop :=
  0xC0 ≤ a.toNat ∧ a.toNat < 0xE0 ∧ IsTail b ∧ 0x80 ≤ value2 a b

/-- Whether two bytes are of this form can be decided. -/
instance (a b : UInt8) : Decidable (IsForm2 a b) := inferInstanceAs (Decidable (_ ∧ _))

/-- A three-byte sequence in shortest form, of a surrogate only where those are allowed. -/
def IsForm3 (surrogates : Bool) (a b c : UInt8) : Prop :=
  0xE0 ≤ a.toNat ∧ a.toNat < 0xF0 ∧ IsTail b ∧ IsTail c ∧ 0x800 ≤ value3 a b c ∧
    (surrogates = true ∨ value3 a b c < 0xD800 ∨ 0xE000 ≤ value3 a b c)

/-- Whether three bytes are of this form can be decided. -/
instance (surrogates : Bool) (a b c : UInt8) : Decidable (IsForm3 surrogates a b c) :=
  inferInstanceAs (Decidable (_ ∧ _))

/-- A four-byte sequence in shortest form, of a code point. -/
def IsForm4 (a b c d : UInt8) : Prop :=
  0xF0 ≤ a.toNat ∧ a.toNat < 0xF8 ∧ IsTail b ∧ IsTail c ∧ IsTail d ∧
    0x10000 ≤ value4 a b c d ∧ value4 a b c d < 0x110000

/-- Whether four bytes are of this form can be decided. -/
instance (a b c d : UInt8) : Decidable (IsForm4 a b c d) := inferInstanceAs (Decidable (_ ∧ _))

/-- The text that a byte string encodes, if it is well formed. -/
def decode (surrogates : Bool) : List UInt8 → Option Text
  | [] => some []
  | a :: s =>
    if a.toNat < 0x80 then (decode surrogates s).map (Fin.ofNat _ a.toNat :: ·)
    else
      match s with
      | [] => none
      | b :: s =>
        if IsForm2 a b then (decode surrogates s).map (Fin.ofNat _ (value2 a b) :: ·)
        else
          match s with
          | [] => none
          | c :: s =>
            if IsForm3 surrogates a b c then
              (decode surrogates s).map (Fin.ofNat _ (value3 a b c) :: ·)
            else
              match s with
              | [] => none
              | d :: s =>
                if IsForm4 a b c d then
                  (decode surrogates s).map (Fin.ofNat _ (value4 a b c d) :: ·)
                else none

end StreamConsumer.Utf8
