import StreamConsumer.Text.Utf8

/-!
# Byte strings of unstated encoding

JSON text may come as UTF-8, UTF-16 or UTF-32 without a word on which. A byte order mark decides;
without one the zero bytes do, since the first two code points of a JSON text are ASCII
(`Encoding.detect`). `Encoding.decode` reads the units it found. Encoded surrogates are let through
in all three encodings; only UTF-16 takes a pair of them for one code point, the other two keep both.
-/

namespace StreamConsumer

/-- Which end of a unit comes first. -/
inductive ByteOrder where
  /-- The most significant byte first. -/
  | big
  /-- The least significant byte first. -/
  | little
  deriving DecidableEq, Repr

/-- A character encoding form with its byte order. -/
inductive Encoding where
  /-- One to four bytes a code point. -/
  | utf8
  /-- Units of two bytes. -/
  | utf16 (order : ByteOrder)
  /-- Units of four bytes. -/
  | utf32 (order : ByteOrder)
  deriving DecidableEq, Repr

namespace Encoding

/-! ### Which encoding -/

/-- The encoding that a byte order mark names, and the bytes after the mark. -/
def marked? : List UInt8 → Option (Encoding × List UInt8)
  | 0x00 :: 0x00 :: 0xFE :: 0xFF :: s => some (utf32 .big, s)
  | 0xFF :: 0xFE :: 0x00 :: 0x00 :: s => some (utf32 .little, s)
  | 0xFE :: 0xFF :: s => some (utf16 .big, s)
  | 0xFF :: 0xFE :: s => some (utf16 .little, s)
  | 0xEF :: 0xBB :: 0xBF :: s => some (utf8, s)
  | _ => none

/-- The encoding that the zero bytes at the start of an unmarked text betray. -/
def ofZeros : List UInt8 → Encoding
  | a :: b :: c :: d :: _ =>
    if a = 0 then (if b = 0 then utf32 .big else utf16 .big)
    else if b = 0 then (if c = 0 ∧ d = 0 then utf32 .little else utf16 .little)
    else utf8
  | [a, b] => if a = 0 then utf16 .big else if b = 0 then utf16 .little else utf8
  | _ => utf8

/-- The encoding of a byte string and its bytes after the mark. -/
def detect (s : List UInt8) : Encoding × List UInt8 := (marked? s).getD (ofZeros s, s)

/-! ### Units -/

/-- The two-byte units of a byte string, if it ends with a whole one. -/
def units16? (order : ByteOrder) : List UInt8 → Option (List Nat)
  | [] => some []
  | [_] => none
  | a :: b :: s =>
    let unit :=
      match order with
      | .big => a.toNat * 0x100 + b.toNat
      | .little => b.toNat * 0x100 + a.toNat
    (units16? order s).map (unit :: ·)

/-- The text that two-byte units spell: a high surrogate takes the low one after it. -/
def ofUnits16 : List Nat → Text
  | [] => []
  | [a] => [Fin.ofNat _ a]
  | a :: b :: s =>
    if 0xD800 ≤ a ∧ a < 0xDC00 ∧ 0xDC00 ≤ b ∧ b < 0xE000 then CodePoint.ofPair a b :: ofUnits16 s
    else Fin.ofNat _ a :: ofUnits16 (b :: s)

/-- The text that four-byte units spell, if each is whole and a code point. -/
def ofUnits32? (order : ByteOrder) : List UInt8 → Option Text
  | [] => some []
  | a :: b :: c :: d :: s =>
    let unit :=
      match order with
      | .big => a.toNat * 0x1000000 + b.toNat * 0x10000 + c.toNat * 0x100 + d.toNat
      | .little => d.toNat * 0x1000000 + c.toNat * 0x10000 + b.toNat * 0x100 + a.toNat
    if h : unit < 0x110000 then (ofUnits32? order s).map (⟨unit, h⟩ :: ·) else none
  | _ => none

/-- The text of a byte string in a known encoding. -/
def decodeAs (e : Encoding) (s : List UInt8) : Option Text :=
  match e with
  | utf8 => Utf8.decode true s
  | utf16 order => (units16? order s).map ofUnits16
  | utf32 order => ofUnits32? order s

/-- The text of a byte string of unstated encoding. -/
def decode (s : List UInt8) : Option Text :=
  let (e, rest) := detect s
  decodeAs e rest

end Encoding

end StreamConsumer
