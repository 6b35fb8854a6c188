import StreamConsumer.Binary64.Basic
import StreamConsumer.Calendar.DateTime
import StreamConsumer.Policy

/-!
# Values

Nothing checks the fields of a configuration before it is encoded, and a server may send any
document, so both are made of one dynamic type: `Value`. It has what JSON has, and besides it byte
strings, dates, durations, policies and values of kinds unknown here.

A dictionary is the list of its members in the order in which their keys came; `Members.insert` keeps
keys apart. `Value.equal` is equality by meaning: numbers compare across kinds, a policy equals its
word on the wire, dates compare as instants and the order of members does not count.
-/

namespace StreamConsumer

/-- The kinds of byte strings. -/
inductive BytesKind where
  /-- A byte string that never changes. -/
  | fixed
  /-- A byte string that may change. -/
  | growing
  /-- A window on a byte string. -/
  | view
  deriving DecidableEq, Repr

/-- A value of any kind. -/
inductive Value where
  /-- No value. -/
  | null
  /-- A truth value. -/
  | bool (b : Bool)
  /-- An integer of any size. -/
  | int (i : Int)
  /-- A binary64 number. -/
  | float (x : Binary64)
  /-- An occurrence of "not a number"; it equals itself alone, so occurrences are numbered. -/
  | nan (occurrence : Nat)
  /-- A text. -/
  | text (t : Text)
  /-- A member of a policy vocabulary; it stands wherever its word on the wire may. -/
  | policy (p : Policy)
  /-- Values in order. -/
  | list (items : List Value)
  /-- A dictionary: keys with their values, in the order in which the keys came. -/
  | dict (members : List (Value × Value))
  /-- A byte string. -/
  | bytes (kind : BytesKind) (content : List UInt8)
  /-- A date with a time of day. -/
  | dateTime (d : DateTime)
  /-- A duration. -/
  | duration (d : Duration)
  /-- A value of a kind unknown here; it equals itself alone. -/
  | foreign (occurrence : Nat)
  deriving Inhabited, Repr

namespace Value

/-! ### Views -/

/-- The text that a value is, a policy being its word on the wire. -/
def text? : Value → Option Text
  | text t => some t
  | policy p => some p.wire
  | _ => none

/-- The number that a value is, exactly; a truth value is 0 or 1. -/
def number? : Value → Option Binary64
  | bool b => some (.ofIntExact (if b then 1 else 0))
  | int i => some (.ofIntExact i)
  | float x => some x
  | _ => none

/-- Whether a value is a given number. -/
def isNumber (v : Value) (x : Binary64) : Bool :=
  match v.number? with
  | some y => x.sameValue y
  | none => false

/-- Whether a value is there. -/
def isNull : Value → Bool
  | null => true
  | _ => false

/-- Whether a value counts as something: zero, the empty and the absent do not. -/
def truthy : Value → Bool
  | null => false
  | bool b => b
  | int i => i != 0
  | float x => !x.isZero
  | nan _ => true
  | text t => !t.isEmpty
  | policy _ => true
  | list items => !items.isEmpty
  | dict members => !members.isEmpty
  | bytes _ content => !content.isEmpty
  | dateTime _ => true
  | duration d => d.micros != 0
  | foreign _ => true

/-! ### Names of kinds -/

/-- The name of the kind of a value. -/
def kindName : Value → Text
  | null => "NoneType"
  | bool _ => "bool"
  | int _ => "int"
  | float _ => "float"
  | nan _ => "float"
  | text _ => "str"
  | policy p => p.vocabulary.name
  | list _ => "list"
  | dict _ => "dict"
  | bytes .fixed _ => "bytes"
  | bytes .growing _ => "bytearray"
  | bytes .view _ => "memoryview"
  | dateTime _ => "datetime"
  | duration _ => "timedelta"
  | foreign _ => "Opaque"

/-- The name of the kind of a value, with the module it belongs to where that is not the core. -/
def qualifiedKindName : Value → Text
  | dateTime _ => "datetime.datetime"
  | duration _ => "datetime.timedelta"
  | v => v.kindName

/-! ### Equality -/

mutual

/-- Equality by meaning. -/
def equal : Value → Value → Bool
  | null, null => true
  | int a, int b => a == b
  | bool a, w => w.isNumber (.ofIntExact (if a then 1 else 0))
  | int a, w => w.isNumber (.ofIntExact a)
  | float x, w => w.isNumber x
  | nan a, nan b => a == b
  | text s, w => w.text? == some s
  | policy p, w => w.text? == some p.wire
  | list s, list t => equalItems s t
  | dict s, dict t => s.length == t.length && equalMembers s t
  | bytes _ s, bytes _ t => s == t
  | dateTime d, dateTime e => d.offset.isSome == e.offset.isSome && d.instant == e.instant
  | duration d, duration e => d.micros == e.micros
  | foreign a, foreign b => a == b
  | _, _ => false

/-- Equality item by item. -/
def equalItems : List Value → List Value → Bool
  | [], [] => true
  | v :: s, w :: t => equal v w && equalItems s t
  | _, _ => false

/-- Whether every member has an equal one in a second list. -/
def equalMembers : List (Value × Value) → List (Value × Value) → Bool
  | [], _ => true
  | (k, v) :: s, t => t.any (fun m => equal k m.1 && equal v m.2) && equalMembers s t

end

/-- Whether a value can be told apart by a hash: what can change has none. -/
def isHashable : Value → Bool
  | list _ => false
  | dict _ => false
  | bytes .growing _ => false
  | _ => true

end Value

/-- The members of a dictionary, in the order in which their keys came. -/
abbrev Members := List (Value × Value)

namespace Members

/-- The value of a key. -/
def get? (ms : Members) (key : Value) : Option Value :=
  (ms.find? fun m => m.1.equal key).map Prod.snd

/-- The value of a text key, null where the key is missing. -/
def get (ms : Members) (key : Text) : Value := (ms.get? (.text key)).getD .null

/-- Members with the value of one key set. A key that is there keeps its place. -/
def insert : Members → Value → Value → Members
  | [], key, v => [(key, v)]
  | (k, w) :: ms, key, v =>
    if k.equal key then (k, v) :: ms else (k, w) :: insert ms key v

/-- Members from a list in which a later value of the same key counts. -/
def ofList (ms : List (Value × Value)) : Members := ms.foldl (fun acc m => acc.insert m.1 m.2) []

end Members

end StreamConsumer
