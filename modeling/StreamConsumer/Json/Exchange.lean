import StreamConsumer.Fault

/-!
# JSON as text and as bytes

A value is handed on as a JSON text or as the UTF-8 of one. Each dialect makes one of the two by itself
and the other from it: the strict one makes bytes, which are decoded where a text is asked for; the
lenient one makes a text, which is encoded where bytes are asked for. `Json.decode` takes both back.
-/

namespace StreamConsumer.Json

/-- The text that bytes in UTF-8 hold. -/
def textOfBytes (bytes : List UInt8) : Except Fault Text :=
  match Utf8.decode false bytes with
  | some t => .ok t
  | none => .error (.read .encoding)

/-- A value as JSON bytes; its style is asked for as in `writeWith`. -/
def encodeBytes (d : Dialect) (sorted : Bool) (option : Option Nat) (v : Value) :
    Except Fault (List UInt8) :=
  ((writeWith d sorted option v).map Utf8.encode).mapError .write

/-- A value as JSON text; its style is asked for as in `writeWith`. -/
def encodeText (d : Dialect) (sorted : Bool) (option : Option Nat) (v : Value) :
    Except Fault Text :=
  match d with
  | .strict => encodeBytes .strict sorted option v >>= textOfBytes
  | .lenient => (writeWith .lenient sorted option v).mapError .write

/-- The value of a JSON document, which is a text or a byte string. -/
def decode (d : Dialect) (source : Value) : Except Fault Value :=
  (readSource d source).mapError .read

end StreamConsumer.Json
