import StreamConsumer.Json.Dialect
import StreamConsumer.Text.Encoding

/-!
# Reading JSON

`Json.read` gives the value that a JSON text denotes in a dialect. Both dialects share one grammar;
they differ in the numbers, constants and surrogates that they let through and in the depth to which
they follow. Of the members of a dictionary with the same key the last one counts, at the place of
the first.

The reader consumes its text from the left. Each of its steps that can repeat takes at least one
code point, so twice the length of the text bounds their number: `Json.read` starts with that many.
-/

namespace StreamConsumer

/-- Why a text or byte string is no JSON document. -/
inductive ReadError where
  /-- It does not follow the grammar of the dialect. -/
  | grammar
  /-- The bytes are no text. -/
  | encoding
  /-- It is neither a text nor a byte string; its kind is named. -/
  | input (kind : Text)
  /-- An integer has too many digits. -/
  | digits (count : Nat)
  deriving DecidableEq, Repr

namespace ReadError

/-- What is reported, where the words are ours to choose. -/
def message : ReadError → Text
  | grammar => "invalid JSON"
  | encoding => "invalid encoding"
  | input kind => "the JSON object must be str, bytes or bytearray, not " ++ kind
  | digits count =>
    "Exceeds the limit (4300 digits) for integer string conversion: value has " ++ Text.ofNat count ++
      " digits; use sys.set_int_max_str_digits() to increase the limit"

end ReadError

namespace Json

/-- The four code points that may stand between tokens. -/
def isBlank (c : CodePoint) : Bool := c = 0x20 || c = 0x0A || c = 0x0D || c = 0x09

/-- A text without the blanks at its start. -/
def skipBlank (s : Text) : Text := s.dropWhile isBlank

/-! ### Strings -/

/-- A piece of a string: a code point that stands for itself or a code unit given by number. -/
inductive Piece where
  /-- A code point that stands for itself, or an escape of one letter. -/
  | plain (c : CodePoint)
  /-- An escape by number. -/
  | unit (n : Nat)
  deriving DecidableEq, Repr

/-- The number that four hexadecimal digits denote. -/
def hex4? (a b c d : CodePoint) : Option Nat := do
  let a ← a.hexDigit?
  let b ← b.hexDigit?
  let c ← c.hexDigit?
  let d ← d.hexDigit?
  return ((a * 16 + b) * 16 + c) * 16 + d

/-- The code point that an escape of one letter stands for. -/
def letterEscape? (c : CodePoint) : Option CodePoint :=
  if c = 0x22 ∨ c = 0x5C ∨ c = 0x2F then some c
  else if c = 0x62 then some 0x08
  else if c = 0x66 then some 0x0C
  else if c = 0x6E then some 0x0A
  else if c = 0x72 then some 0x0D
  else if c = 0x74 then some 0x09
  else none

/-- The pieces of a string up to its closing quotation mark, and what follows the mark. -/
def pieces? : Text → Option (List Piece × Text)
  | [] => none
  | c :: s =>
    if c = 0x22 then some ([], s)
    else if c.val < 0x20 then none
    else if c = 0x5C then
      match s with
      | [] => none
      | e :: s =>
        if e = 0x75 then
          match s with
          | h1 :: h2 :: h3 :: h4 :: s => do
            let n ← hex4? h1 h2 h3 h4
            let (ps, rest) ← pieces? s
            return (.unit n :: ps, rest)
          | _ => none
        else do
          let c ← letterEscape? e
          let (ps, rest) ← pieces? s
          return (.plain c :: ps, rest)
    else do
      let (ps, rest) ← pieces? s
      return (.plain c :: ps, rest)

/-- A code unit that is no half of a pair. Only the lenient dialect lets a surrogate through. -/
def lone? (d : Dialect) (n : Nat) : Option CodePoint :=
  if d = .strict ∧ 0xD800 ≤ n ∧ n < 0xE000 then none else some (Fin.ofNat _ n)

/-- The text that pieces spell: two escapes in a row that are a surrogate pair make one code
point. -/
def spell? (d : Dialect) : List Piece → Option Text
  | [] => some []
  | .plain c :: ps => (spell? d ps).map (c :: ·)
  | .unit n :: ps =>
    match ps with
    | .unit m :: rest =>
      if 0xD800 ≤ n ∧ n < 0xDC00 ∧ 0xDC00 ≤ m ∧ m < 0xE000 then
        (spell? d rest).map (CodePoint.ofPair n m :: ·)
      else do
        let c ← lone? d n
        let t ← spell? d (.unit m :: rest)
        return c :: t
    | ps => do
      let c ← lone? d n
      let t ← spell? d ps
      return c :: t

/-- A string after its opening quotation mark, and what follows it. -/
def readText (d : Dialect) (s : Text) : Except ReadError (Text × Text) :=
  match pieces? s with
  | none => .error .grammar
  | some (ps, rest) =>
    match spell? d ps with
    | none => .error .grammar
    | some t => .ok (t, rest)

/-! ### Numbers -/

/-- A numeral split into its parts. -/
structure Numeral where
  /-- Whether it starts with a minus sign. -/
  negative : Bool
  /-- The digits of the whole part. -/
  whole : Text
  /-- The digits after the point, if there is one. -/
  fraction : Option Text
  /-- The exponent, if there is one. -/
  exponent : Option Int
  deriving DecidableEq, Repr

/-- The digits of a whole part: a zero stands alone. -/
def whole? : Text → Option (Text × Text)
  | [] => none
  | c :: s =>
    if c = 0x30 then some ([c], s)
    else if c.isDigit then
      let (run, rest) := s.span CodePoint.isDigit
      some (c :: run, rest)
    else none

/-- The digits after a point, where a point with a digit follows. -/
def fractionDigits : Text → Option Text × Text
  | c :: e :: s =>
    if c = 0x2E ∧ e.isDigit then
      let (run, rest) := s.span CodePoint.isDigit
      (some (e :: run), rest)
    else (none, c :: e :: s)
  | s => (none, s)

/-- A signed run of digits, where there is one. -/
def signed? : Text → Option (Int × Text)
  | [] => none
  | c :: s =>
    let (run, rest) :=
      if c = 0x2B ∨ c = 0x2D then s.span CodePoint.isDigit else (c :: s).span CodePoint.isDigit
    let magnitude : Int := Text.digitsValue run
    if run.isEmpty then none else some (if c = 0x2D then -magnitude else magnitude, rest)

/-- The exponent, where a letter `e` with a number follows. -/
def exponentValue : Text → Option Int × Text
  | c :: s =>
    if c = 0x65 ∨ c = 0x45 then
      match signed? s with
      | some (e, rest) => (some e, rest)
      | none => (none, c :: s)
    else (none, c :: s)
  | [] => (none, [])

/-- The longest numeral at the start of a text, and what follows it. -/
def numeral? (s : Text) : Option (Numeral × Text) :=
  let (negative, s) :=
    match s with
    | c :: rest => if c = 0x2D then (true, rest) else (false, s)
    | [] => (false, [])
  match whole? s with
  | none => none
  | some (whole, s) =>
    let (fraction, s) := fractionDigits s
    let (exponent, s) := exponentValue s
    some ({ negative, whole, fraction, exponent }, s)

/-- A binary64 number as a value. The strict dialect has no infinity. -/
def finiteValue (d : Dialect) : Binary64 → Except ReadError Value
  | .infinite negative =>
    if d = .strict then .error .grammar else .ok (.float (.infinite negative))
  | x => .ok (.float x)

/-- The value of a numeral without point and exponent. An integer beyond the strict dialect is a
binary64 number there. -/
def integerValue (d : Dialect) (negative : Bool) (digits : Text) : Except ReadError Value :=
  let magnitude := digits.digitsValue
  let i : Int := if negative then -magnitude else magnitude
  match d with
  | .strict =>
    if d.admitsInt i then .ok (.int i) else finiteValue d (.ofDecimal negative magnitude 0)
  | .lenient =>
    if digits.length ≤ Dialect.maxDigits then .ok (.int i) else .error (.digits digits.length)

/-- The value of a numeral. -/
def numeralValue (d : Dialect) (n : Numeral) : Except ReadError Value :=
  match n.fraction, n.exponent with
  | none, none => integerValue d n.negative n.whole
  | fraction, exponent =>
    let fraction := fraction.getD []
    finiteValue d
      (.ofDecimal n.negative (Text.digitsValue (n.whole ++ fraction))
        (exponent.getD 0 - fraction.length))

/-! ### Constants -/

/-- What follows a word at the start of a text. -/
def afterWord? (word : Text) (s : Text) : Option Text :=
  if word.isPrefixOf s then some (s.drop word.length) else none

/-- A constant at the start of a text, and what follows it. -/
def constant? (d : Dialect) (s : Text) : Option (Value × Text) :=
  let words : List (String × Value) :=
    [("null", .null), ("true", .bool true), ("false", .bool false)] ++
      match d with
      | .strict => []
      | .lenient =>
        [("NaN", .nan 0), ("Infinity", .float (.infinite false)),
          ("-Infinity", .float (.infinite true))]
  words.findSome? fun w => (afterWord? w.1 s).map fun rest => (w.2, rest)

/-- A constant or a number, and what follows it. -/
def readScalar (d : Dialect) (s : Text) : Except ReadError (Value × Text) :=
  match constant? d s with
  | some r => .ok r
  | none =>
    match numeral? s with
    | none => .error .grammar
    | some (n, rest) => do
      let v ← numeralValue d n
      return (v, rest)

/-! ### Values -/

mutual

/-- The value at the start of a text inside `depth` containers, and what follows it. -/
def readValue (d : Dialect) : Nat → Nat → Text → Except ReadError (Value × Text)
  | 0, _, _ => .error .grammar
  | fuel + 1, depth, s =>
    match s with
    | [] => .error .grammar
    | c :: rest =>
      if c = 0x22 then do
        let (t, rest) ← readText d rest
        return (.text t, rest)
      else if c = 0x5B then
        if d.readsDepth depth then
          match skipBlank rest with
          | [] => .error .grammar
          | c :: rest =>
            if c = 0x5D then .ok (.list [], rest)
            else do
              let (items, rest) ← readItems d fuel (depth + 1) (c :: rest)
              return (.list items, rest)
        else .error .grammar
      else if c = 0x7B then
        if d.readsDepth depth then
          match skipBlank rest with
          | [] => .error .grammar
          | c :: rest =>
            if c = 0x7D then .ok (.dict [], rest)
            else do
              let (members, rest) ← readMembers d fuel (depth + 1) (c :: rest)
              return (.dict (Members.ofList members), rest)
        else .error .grammar
      else readScalar d (c :: rest)

/-- The items up to a closing bracket, and what follows it. -/
def readItems (d : Dialect) : Nat → Nat → Text → Except ReadError (List Value × Text)
  | 0, _, _ => .error .grammar
  | fuel + 1, depth, s => do
    let (v, rest) ← readValue d fuel depth s
    match skipBlank rest with
    | [] => .error .grammar
    | c :: rest =>
      if c = 0x5D then .ok ([v], rest)
      else if c = 0x2C then do
        let (items, rest) ← readItems d fuel depth (skipBlank rest)
        return (v :: items, rest)
      else .error .grammar

/-- The members up to a closing brace, and what follows it. -/
def readMembers (d : Dialect) : Nat → Nat → Text → Except ReadError (List (Value × Value) × Text)
  | 0, _, _ => .error .grammar
  | _ + 1, _, [] => .error .grammar
  | fuel + 1, depth, q :: s =>
    if q = 0x22 then do
      let (key, rest) ← readText d s
      match skipBlank rest with
      | [] => .error .grammar
      | c :: rest =>
        if c = 0x3A then do
          let (v, rest) ← readValue d fuel depth (skipBlank rest)
          match skipBlank rest with
          | [] => .error .grammar
          | c :: rest =>
            if c = 0x7D then .ok ([(.text key, v)], rest)
            else if c = 0x2C then do
              let (members, rest) ← readMembers d fuel depth (skipBlank rest)
              return ((.text key, v) :: members, rest)
            else .error .grammar
        else .error .grammar
    else .error .grammar

end

/-- The value that a JSON text denotes. -/
def read (d : Dialect) (s : Text) : Except ReadError Value := do
  let (v, rest) ← readValue d (2 * s.length + 2) 0 (skipBlank s)
  if (skipBlank rest).isEmpty then return v else throw .grammar

/-! ### Sources -/

/-- The text of a byte string. The strict dialect takes UTF-8 alone; the lenient one finds out the
encoding. -/
def sourceText (d : Dialect) (bytes : List UInt8) : Except ReadError Text :=
  match d with
  | .strict =>
    match Utf8.decode false bytes with
    | some t => .ok t
    | none => .error .grammar
  | .lenient =>
    match Encoding.decode bytes with
    | some t => .ok t
    | none => .error .encoding

/-- The value that a JSON document denotes, which is a text or a byte string. The strict dialect
refuses surrogates in it, the lenient one a byte order mark at the start of a text. -/
def readSource (d : Dialect) (source : Value) : Except ReadError Value :=
  match d, source with
  | .strict, .text t => if t.IsScalar then read d t else .error .grammar
  | .strict, .bytes _ s => sourceText d s >>= read d
  | .strict, _ => .error .grammar
  | .lenient, .bytes .view _ => .error (.input source.kindName)
  | .lenient, .bytes _ s => sourceText d s >>= read d
  | .lenient, v =>
    match v.text? with
    | none => .error (.input v.kindName)
    | some t => if t.head? = some 0xFEFF then .error .grammar else read d t

end Json

end StreamConsumer
