import StreamConsumer.Configuration.Basic
import StreamConsumer.Outcome

/-!
# Configurations on the wire

A configuration travels as a JSON object with one member a field. A request wraps it together with
the name of the stream; an answer wraps what the server made of it. Encoding takes the fields in
`Field.wireOrder`, decoding in `Field.all`, and either ends at the first field with a fault.
-/

namespace StreamConsumer

namespace Configuration

/-! ### Encoding -/

/-- The member of a field, if the wire carries one. -/
def member (c : Configuration) (f : Field) : Except Fault Members :=
  (f.kind.encode f.tag (c.get f)).map fun v => (v.map fun w => (.text f.tag, w)).toList

/-- The members of the fields in a list. -/
def membersOf (c : Configuration) : List Field → Except Fault Members
  | [] => .ok []
  | f :: fs => do
    let m ← c.member f
    let ms ← c.membersOf fs
    return m ++ ms

/-- The members under which a configuration travels. -/
def toMembers (c : Configuration) : Except Fault Members := c.membersOf Field.wireOrder

/-- A request for a consumer of a stream. -/
def request (stream : Value) (config : Members) : Value :=
  .dict [(.text Document.streamTag, stream), (.text Document.configurationTag, .dict config)]

/-- What a request is refused with that has no JSON text. An integer of too many digits is no matter of
kinds, so the fault is one from below. -/
def refusal : WriteError → Fault
  | .digits => .write .digits
  | e => .report .encode (.whole e.message)

/-- The JSON text of a request. -/
def encodeRequest (d : Dialect) (c : Configuration) (stream : Value) : Except Fault Text := do
  let ms ← c.toMembers
  (Json.write d .compact (request stream ms)).mapError refusal

/-! ### Decoding -/

/-- A configuration with a field taken from a document, if it is there. -/
def readField (ms : Members) (c : Configuration) (f : Field) : Except Fault Configuration := do
  match ← Document.read ms f.tag f.kind with
  | some v => return c.set f v
  | none => return c

/-- A configuration with the fields of a list taken from a document. -/
def readFields (ms : Members) (c : Configuration) : List Field → Except Fault Configuration
  | [] => .ok c
  | f :: fs => do
    let c ← readField ms c f
    readFields ms c fs

/-- The keys of a document that are no tags. -/
def unknownKeys (ms : Members) : List Value := (ms.map Prod.fst).filter fun k => !Field.isTag k

/-- The record about keys that are no tags. -/
def unknownRecord (keys : List Value) : LogRecord :=
  ⟨.configuration, "ignoring unknown consumer config fields: " ++ (Value.list keys).literal⟩

/-- The configuration that the members of a document describe. Keys that are no tags are passed over
with a record. -/
def ofMembers (ms : Members) : Outcome Configuration :=
  let keys := unknownKeys ms
  { records := if keys.isEmpty then [] else [unknownRecord keys]
    result := readFields ms standard Field.all }

/-- The configuration in the answer of a server. -/
def decodeResponse (d : Dialect) (source : Value) : Outcome Configuration := do
  let doc ← Document.load d source
  let config := doc.get Document.configurationTag
  if config.isNull then
    throw (Fault.decoding "response has no config" Document.configurationTag .null)
  ofMembers (← Document.object Document.configurationTag config)

end Configuration

end StreamConsumer
