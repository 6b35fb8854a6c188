import StreamConsumer.Json.Dialect
import StreamConsumer.Json.Order
import StreamConsumer.Text.Utf8

/-!
# Writing JSON

`Json.write` gives the JSON text of a value in a dialect, or the first reason, from left to right,
why there is none. Its style says whether the text is compact or indented by two, and whether the
members of dictionaries stand in their own order or in the order of their keys.

The members of a dictionary are written before they are put in order, so that the writer recurses
on the value alone; a fault in one counts only when its turn comes.
-/

namespace StreamConsumer

/-- Why a value has no JSON text. -/
inductive WriteError where
  /-- A text has a surrogate. -/
  | surrogate
  /-- An integer has more than 64 bits. -/
  | integer
  /-- An integer has too many digits. -/
  | digits
  /-- A key is no text. -/
  | key
  /-- A key has no notation; its kind is named. -/
  | keyKind (name : Text)
  /-- A value has no notation in the dialect; its kind is named. -/
  | kind (dialect : Dialect) (name : Text)
  /-- Containers are nested too deeply. -/
  | depth
  /-- The keys of a dictionary have no order. -/
  | order (error : OrderError)
  /-- The dialect knows no options. -/
  | option
  deriving DecidableEq, Repr

namespace WriteError

/-- What is reported. -/
def message : WriteError → Text
  | surrogate => "str is not valid UTF-8: surrogates not allowed"
  | integer => "Integer exceeds 64-bit range"
  | digits =>
    "Exceeds the limit (4300 digits) for integer string conversion; " ++
      "use sys.set_int_max_str_digits() to increase the limit"
  | key => "Dict key must be str"
  | keyKind name => "keys must be str, int, float, bool or None, not " ++ name
  | kind .strict name => "Type is not JSON serializable: " ++ name
  | kind .lenient name => "Object of type " ++ name ++ " is not JSON serializable"
  | depth => "Recursion limit reached"
  | order (.kinds left right) =>
    "'<' not supported between instances of '" ++ left ++ "' and '" ++ right ++ "'"
  | order .clocks => "can't compare offset-naive and offset-aware datetimes"
  | option => "JSONEncoder.__init__() got an unexpected keyword argument 'option'"

end WriteError

/-- How JSON text is arranged. -/
structure JsonStyle where
  /-- Whether items stand on lines of their own. -/
  indented : Bool
  /-- Whether members stand in the order of their keys. -/
  sorted : Bool
  deriving DecidableEq, Repr

namespace JsonStyle

/-- Compact, in the order of the value. -/
def compact : JsonStyle := ⟨false, false⟩

end JsonStyle

namespace Json

/-! ### Strings -/

/-- A code unit as an escape of four hexadecimal digits. -/
def unitEscape (n : Nat) : Text := "\\u" ++ Text.hexPadded 4 n

/-- A code point between quotation marks. -/
def escape (d : Dialect) (c : CodePoint) : Text :=
  if c = 0x22 then "\\\""
  else if c = 0x5C then "\\\\"
  else if c = 0x0A then "\\n"
  else if c = 0x0D then "\\r"
  else if c = 0x09 then "\\t"
  else if c = 0x0C then "\\f"
  else if c = 0x08 then "\\b"
  else if c.val < 0x20 then unitEscape c.val
  else if c.val < 0x7F ∨ d.asciiOnly = false then [c]
  else if c.val < 0x10000 then unitEscape c.val
  else
    unitEscape (0xD800 + (c.val - 0x10000) / 0x400) ++ unitEscape (0xDC00 + (c.val - 0x10000) % 0x400)

/-- A text in quotation marks. -/
def writeText (d : Dialect) (t : Text) : Except WriteError Text :=
  if d.asciiOnly = true ∨ t.IsScalar then .ok ([0x22] ++ t.flatMap (escape d) ++ [0x22])
  else .error .surrogate

/-! ### Numbers -/

/-- An integer. The strict dialect has those of 64 bits, the lenient one those of 4300 digits. -/
def writeInt (d : Dialect) (i : Int) : Except WriteError Text :=
  match d with
  | .strict => if FitsWord i then .ok (Text.ofInt i) else .error .integer
  | .lenient =>
    if (Text.ofNat i.natAbs).length ≤ Dialect.maxDigits then .ok (Text.ofInt i) else .error .digits

/-- A binary64 number. -/
def floatText (d : Dialect) : Binary64 → Text
  | .finite negative significand exponent => d.layout.finite negative significand exponent
  | .infinite negative => d.infinityText negative

/-! ### Containers -/

/-- The line on which an item inside `depth` containers begins. -/
def lineStart (s : JsonStyle) (depth : Nat) : Text :=
  if s.indented then (0x0A : CodePoint) :: List.replicate (2 * depth) (0x20 : CodePoint) else []

/-- Items between brackets, inside `depth` containers. -/
def bracketed (s : JsonStyle) (depth : Nat) (opening closing : CodePoint) : List Text → Text
  | [] => [opening, closing]
  | pieces =>
    [opening] ++ lineStart s (depth + 1) ++ Text.joined ([0x2C] ++ lineStart s (depth + 1)) pieces ++
      lineStart s depth ++ [closing]

/-- What stands between a key and its value. -/
def colon (s : JsonStyle) : Text := if s.indented then ": " else ":"

/-- A key. The strict dialect takes texts alone; the lenient one turns numbers and constants into
text. -/
def writeKey : Dialect → Value → Except WriteError Text
  | .strict, .text t => writeText .strict t
  | .strict, _ => .error .key
  | .lenient, .text t => writeText .lenient t
  | .lenient, .policy p => writeText .lenient p.wire
  | .lenient, .null => writeText .lenient "null"
  | .lenient, .bool true => writeText .lenient "true"
  | .lenient, .bool false => writeText .lenient "false"
  | .lenient, .int i => writeInt .lenient i >>= writeText .lenient
  | .lenient, .float x => writeText .lenient (floatText .lenient x)
  | .lenient, .nan _ => writeText .lenient Dialect.lenient.nanText
  | .lenient, v => .error (.keyKind v.qualifiedKindName)

/-- Keys that are all texts, with what belongs to them. -/
def textKeys? {α : Type} : List (Value × α) → Option (List (Text × Value × α))
  | [] => some []
  | (k, a) :: rest => do
    let t ← k.text?
    let rest ← textKeys? rest
    return (t, k, a) :: rest

/-- Written members in the order in which the style wants them. The strict dialect looks at all keys
before it puts them in order. -/
def arrange {α : Type} (d : Dialect) (s : JsonStyle) (members : List (Value × α)) :
    Except WriteError (List (Value × α)) :=
  if s.sorted then do
    if d = .strict then members.forM fun m => discard (writeKey d m.1)
    match textKeys? members with
    | some keyed => return (KeyOrder.byText keyed).map Prod.snd
    | none =>
      match KeyOrder.byComparison members with
      | .ok members => return members
      | .error e => throw (.order e)
  else .ok members

/-- Written members as pieces: key, colon, value. -/
def memberPieces (d : Dialect) (s : JsonStyle) :
    List (Value × Except WriteError Text) → Except WriteError (List Text)
  | [] => .ok []
  | (k, v) :: rest => do
    let key ← writeKey d k
    let value ← v
    let rest ← memberPieces d s rest
    return (key ++ colon s ++ value) :: rest

/-! ### Values -/

mutual

/-- The JSON text of a value inside `depth` containers. -/
def writeAt (d : Dialect) (s : JsonStyle) (depth : Nat) : Value → Except WriteError Text
  | .null => .ok "null"
  | .bool true => .ok "true"
  | .bool false => .ok "false"
  | .int i => writeInt d i
  | .float x => .ok (floatText d x)
  | .nan _ => .ok d.nanText
  | .text t => writeText d t
  | .policy p => writeText d p.wire
  | .list items =>
    if d.admitsDepth depth then do
      let pieces ← writeItems d s (depth + 1) items
      return bracketed s depth 0x5B 0x5D pieces
    else .error .depth
  | .dict members =>
    if d.admitsDepth depth then do
      let members ← arrange d s (writeMembers d s (depth + 1) members)
      let pieces ← memberPieces d s members
      return bracketed s depth 0x7B 0x7D pieces
    else .error .depth
  | .dateTime t =>
    match d with
    | .strict => .ok ([0x22] ++ t.isoText ++ [0x22])
    | .lenient => .error (.kind .lenient (Value.dateTime t).kindName)
  | v =>
    match d with
    | .strict => .error (.kind .strict v.qualifiedKindName)
    | .lenient => .error (.kind .lenient v.kindName)

/-- The JSON texts of values in order. -/
def writeItems (d : Dialect) (s : JsonStyle) (depth : Nat) :
    List Value → Except WriteError (List Text)
  | [] => .ok []
  | v :: vs => do
    let piece ← writeAt d s depth v
    let pieces ← writeItems d s depth vs
    return piece :: pieces

/-- The keys of members with the JSON texts of their values. -/
def writeMembers (d : Dialect) (s : JsonStyle) (depth : Nat) :
    List (Value × Value) → List (Value × Except WriteError Text)
  | [] => []
  | (k, v) :: ms => (k, writeAt d s depth v) :: writeMembers d s depth ms

end

/-- The JSON text of a value. -/
def write (d : Dialect) (s : JsonStyle) (v : Value) : Except WriteError Text := writeAt d s 0 v

/-- The JSON text of a value, where the style is asked for by options: sorting by name, and in the
strict dialect by a number whose bits 0 and 5 mean indentation and sorting. -/
def writeWith (d : Dialect) (sorted : Bool) (option : Option Nat) (v : Value) :
    Except WriteError Text :=
  match d, option with
  | .lenient, some _ => .error .option
  | _, none => write d ⟨false, sorted⟩ v
  | .strict, some bits => write d ⟨bits.testBit 0, sorted || bits.testBit 5⟩ v

end Json

end StreamConsumer
