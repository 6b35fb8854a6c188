import StreamConsumer.Fault

/-!
# Documents and the kinds of their fields

A document is the members of a JSON object. Every field of it has a `FieldKind`, which says what the
wire carries there and what value that stands for: `FieldKind.decode` reads a value that came over
the wire, `FieldKind.encode` turns a value into what the wire carries. Durations travel as
nanoseconds, times as RFC 3339 text in UTC, policies as their words.

A field that is missing and a field that is null are the same: `Document.read` finds nothing in both.
-/

namespace StreamConsumer

/-- What a field carries. -/
inductive FieldKind where
  /-- A text. -/
  | text
  /-- An integer of 64 bits. -/
  | integer
  /-- A duration, in nanoseconds. -/
  | duration
  /-- A date with a time of day, in RFC 3339 notation. -/
  | date
  /-- A word of a vocabulary. -/
  | policy (v : Vocabulary)
  deriving DecidableEq, Repr

namespace FieldKind

/-! ### From the wire -/

/-- The text of a field. -/
def decodeText (tag : Text) (v : Value) : Except Fault Text :=
  match v.text? with
  | some t => .ok t
  | none => .error (.decoding "expected a string" tag v)

/-- The integer of a field. -/
def decodeInteger (tag : Text) : Value → Except Fault Int
  | .int n => .ok n
  | v => .error (.decoding "expected an integer" tag v)

/-- The duration of a number of nanoseconds; what is below a microsecond is dropped. -/
def durationOfNanoseconds (n : Int) : Except Fault Duration :=
  (Duration.ofMicros (n / 1000)).mapError .duration

/-- The value that a field of the wire stands for. -/
def decode (k : FieldKind) (tag : Text) (v : Value) : Except Fault Value :=
  match k with
  | text => (decodeText tag v).map fun _ => v
  | integer => (decodeInteger tag v).map .int
  | duration => do
    let n ← decodeInteger tag v
    return .duration (← durationOfNanoseconds n)
  | date => do
    let t ← decodeText tag v
    match Timestamp.parse t with
    | .ok d => return .dateTime d
    | .error e => throw (.decoding (e.message v.literal) tag v)
  | policy vocabulary => do
    let word ← decodeText tag v
    match vocabulary.ofWire? word with
    | some p => return .policy p
    | none => throw (.report .policy (.about ("unknown " ++ vocabulary.name) tag v))

/-! ### To the wire -/

/-- An integer as the wire carries it. -/
def encodeInteger (tag : Text) : Value → Except Fault Int
  | .int n =>
    if FitsWord n then .ok n
    else .error (.encoding "integer exceeds 64-bit range" tag (.int n))
  | v => .error (.encoding "expected an integer" tag v)

/-- The nanoseconds of a duration. -/
def nanoseconds : Value → Except Fault Int
  | .duration d => .ok d.nanoseconds
  | v => .error (.property v.qualifiedKindName "days")

/-- RFC 3339 notation of a date with a time of day. -/
def timestamp : Value → Except Fault Text
  | .dateTime d =>
    match Timestamp.render d with
    | some t => .ok t
    | none => .error .dateRange
  | v => .error (.property v.qualifiedKindName "tzinfo")

/-- The word of a policy. -/
def word : Value → Except Fault Text
  | .policy p => .ok p.wire
  | v => .error (.property v.qualifiedKindName "value")

/-- What the wire carries for a value; texts and dates may be missing. -/
def encode (k : FieldKind) (tag : Text) (v : Value) : Except Fault (Option Value) :=
  match k with
  | text => .ok (if v.isNull then none else some v)
  | integer => (encodeInteger tag v).map fun n => some (.int n)
  | duration => do
    let n ← nanoseconds v
    return some (.int (← encodeInteger tag (.int n)))
  | date => if v.isNull then .ok none else (timestamp v).map fun t => some (.text t)
  | policy _ => (word v).map fun t => some (.text t)

/-! ### By hand -/

/-- The duration of a number of seconds, which may be a duration already. -/
def durationOfSeconds : Value → Except Fault Duration
  | .duration d => .ok d
  | .int n => (Duration.ofSeconds n).mapError .duration
  | .bool b => (Duration.ofSeconds (if b then 1 else 0)).mapError .duration
  | .float x => (Duration.ofBinary64 x).mapError .duration
  | .nan _ => .error .nanSeconds
  | v => .error (.secondsKind v.qualifiedKindName)

/-- The member of a vocabulary that a value names by its word, if there is one. -/
def member? (vocabulary : Vocabulary) (v : Value) : Option Policy := v.text? >>= vocabulary.ofWire?

/-- The member of a vocabulary that a value has to name by its word. -/
def member (vocabulary : Vocabulary) (v : Value) : Except Fault Policy :=
  match member? vocabulary v with
  | some p => .ok p
  | none => .error (.notMember v vocabulary)

/-- The value that is kept where one is set by hand: words become policies, seconds become durations,
and all else is kept as it is. -/
def coerce (k : FieldKind) (v : Value) : Except Fault Value :=
  match k with
  | policy vocabulary => (member vocabulary v).map .policy
  | duration => (durationOfSeconds v).map .duration
  | text => .ok v
  | integer => .ok v
  | date => .ok v

end FieldKind

namespace Document

/-- The members of the object that a JSON document holds. -/
def load (d : Dialect) (source : Value) : Except Fault Members :=
  match Json.readSource d source with
  | .error _ => .error (.report .decode (.whole "invalid JSON"))
  | .ok (.dict ms) => .ok ms
  | .ok v => .error (.report .decode (.whole ("expected a JSON object, got " ++ v.kindName)))

/-- The value of a field of a document, if the field is there. -/
def read (ms : Members) (tag : Text) (k : FieldKind) : Except Fault (Option Value) :=
  let v := ms.get tag
  if v.isNull then .ok none else (k.decode tag v).map some

/-- A field that has to hold an object, if it is there. -/
def object (tag : Text) : Value → Except Fault Members
  | .dict ms => .ok ms
  | v => .error (.decoding "expected a JSON object" tag v)

end Document

end StreamConsumer
