import StreamConsumer.Text.Printable

/-!
# Quoted texts

How a text or a byte string is shown inside a message: between quotes, on one line, with everything
unprintable escaped. The quote is an apostrophe, unless the content has an apostrophe and no double
quote. A code point is escaped by the shortest of `\xhh`, `\uhhhh` and `\Uhhhhhhhh` that holds it.

A byte string that may change is shown with every apostrophe escaped, even between double quotes.
-/

namespace StreamConsumer.Quoted

/-- The quote that surrounds a content. -/
def quoteFor (t : Text) : CodePoint := if 0x27 ∈ t ∧ 0x22 ∉ t then 0x22 else 0x27

/-- A code point by number, in the shortest escape that holds it. -/
def numeric (c : CodePoint) : Text :=
  if c.val < 0x100 then "\\x" ++ Text.hexPadded 2 c.val
  else if c.val < 0x10000 then "\\u" ++ Text.hexPadded 4 c.val
  else "\\U" ++ Text.hexPadded 8 c.val

/-- One code point between the given quotes. -/
def escape (quote c : CodePoint) : Text :=
  if c = quote ∨ c = 0x5C then [0x5C, c]
  else if c = 0x09 then "\\t"
  else if c = 0x0A then "\\n"
  else if c = 0x0D then "\\r"
  else if c.isPrintable then [c]
  else numeric c

/-- A text between quotes. -/
def ofText (t : Text) : Text :=
  let quote := quoteFor t
  [quote] ++ t.flatMap (escape quote) ++ [quote]

/-- One byte between the given quotes: only ASCII shows as itself. -/
def escapeByte (quote : CodePoint) (b : UInt8) : Text :=
  if b < 0x80 then escape quote (Fin.ofNat _ b.toNat) else "\\x" ++ Text.hexPadded 2 b.toNat

/-- The quote that surrounds a byte string. -/
def quoteForBytes (s : List UInt8) : CodePoint := quoteFor (s.map fun b => Fin.ofNat _ b.toNat)

/-- A byte string between quotes, marked by a leading letter. -/
def ofBytes (s : List UInt8) : Text :=
  let quote := quoteForBytes s
  "b" ++ [quote] ++ s.flatMap (escapeByte quote) ++ [quote]

/-- A byte string that may change between quotes, marked by a leading letter. Its apostrophes are
escaped whichever the quote is; a double quote is never between double quotes. -/
def ofGrowingBytes (s : List UInt8) : Text :=
  let quote := quoteForBytes s
  "b" ++ [quote] ++ s.flatMap (escapeByte 0x27) ++ [quote]

end StreamConsumer.Quoted
