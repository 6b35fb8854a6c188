import StreamConsumer.Value.Literal
import StreamConsumer.Word

/-!
# Two dialects of JSON

JSON is written and read in one of two dialects. The strict one keeps to what every reader
understands: UTF-8 text, integers of 64 bits, finite numbers, a bounded depth. The lenient one has
ASCII text, integers of up to 4300 digits, the constants `NaN` and `Infinity`, lone surrogates as
escapes and no bound on depth. All their differences are the decisions listed here; one writer and one
reader consult them.
-/

namespace StreamConsumer

/-- A dialect of JSON. -/
inductive Dialect where
  /-- Refuses what not every reader understands. -/
  | strict
  /-- Writes and reads whatever has a notation. -/
  | lenient
  deriving DecidableEq, Repr

namespace Dialect

/-- The most digits that an integer of the lenient dialect may have, written or read. -/
def maxDigits : Nat := 4300

/-! ### Writing -/

/-- Whether text outside ASCII is escaped. -/
def asciiOnly : Dialect → Bool
  | strict => false
  | lenient => true

/-- How the digits of a number are laid out. -/
def layout : Dialect → DecimalLayout
  | strict => ⟨-5, 15, 1⟩
  | lenient => literalLayout

/-- The notation of a number that is not finite, as far as there is one. -/
def infinityText : Dialect → Bool → Text
  | strict, _ => "null"
  | lenient, false => "Infinity"
  | lenient, true => "-Infinity"

/-- The notation of "not a number", as far as there is one. -/
def nanText : Dialect → Text
  | strict => "null"
  | lenient => "NaN"

/-- Whether a container may be written inside `depth` others. The lenient dialect has no bound of its own:
the stack of the program that writes is taken to suffice. -/
def admitsDepth : Dialect → Nat → Bool
  | strict, depth => depth < 254
  | lenient, _ => true

/-! ### Reading -/

/-- Whether an integer that was read stays one. -/
def admitsInt : Dialect → Int → Bool
  | strict, i => FitsWord i
  | lenient, _ => true

/-- Whether a container may be read inside `depth` others. -/
def readsDepth : Dialect → Nat → Bool
  | strict, depth => depth < 1024
  | lenient, _ => true

end Dialect

end StreamConsumer
