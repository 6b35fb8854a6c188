import StreamConsumer.Configuration.Wire

/-!
# Create requests

To create a consumer, a client sends a configuration to a subject that names the stream and, for a
durable consumer, the durable name. `CreateRequest.prepare` settles the configuration, the subject
and the payload; `CreateRequest.parseResponse` reads the answer, which is the configuration that the
server applied or an error.
-/

namespace StreamConsumer

/-- What is decided while a consumer is created; null stands for what is not decided. -/
structure Overrides where
  /-- The durable name. -/
  durable : Value := .null
  /-- The subject that messages are pushed to. -/
  deliverSubject : Value := .null
  /-- The subject that messages are chosen by. -/
  filterSubject : Value := .null
  /-- How many messages may wait for an acknowledgement. -/
  maxAckPending : Value := .null
  deriving Repr

namespace Overrides

/-- The decisions by field. -/
def fields (o : Overrides) : List (Field × Value) :=
  [(.durable, o.durable), (.deliverSubject, o.deliverSubject), (.filterSubject, o.filterSubject),
    (.maxAckPending, o.maxAckPending)]

/-- The decisions that were made. -/
def decided (o : Overrides) : List (Field × Value) := o.fields.filter fun p => !p.2.isNull

/-- Whether nothing was decided; a configuration then stays the very one that it was. -/
def isEmpty (o : Overrides) : Bool := o.decided.isEmpty

end Overrides

/-- A configuration with what was decided in place of its own. -/
def Configuration.finalize (c : Configuration) (o : Overrides) : Configuration :=
  o.decided.foldl (fun c p => c.set p.1 p.2) c

/-- A request that is ready to be sent. -/
structure CreateRequest where
  /-- Where it is sent. -/
  subject : Text
  /-- The configuration asked for. -/
  config : Configuration
  /-- What is sent: the UTF-8 form of the request. -/
  payload : List UInt8

namespace CreateRequest

/-- The first part of subjects, unless another one is asked for. -/
def defaultPrefix : Text := "$JS.API"

/-- The subject that a consumer of a stream is created on. -/
def subjectOf (stream durable leading : Value) : Text :=
  if durable.truthy then
    leading.display ++ ".CONSUMER.DURABLE.CREATE." ++ stream.display ++ "." ++ durable.display
  else
    leading.display ++ ".CONSUMER.CREATE." ++ stream.display

/-- The request for a consumer. The subject is recorded before the configuration is encoded. -/
def prepare (d : Dialect) (stream : Value) (base : Option Configuration) (o : Overrides)
    (leading : Value) : Outcome CreateRequest := do
  if !stream.truthy then throw Fault.streamRequired
  let config := (base.getD .standard).finalize o
  let subject := subjectOf stream config.durable leading
  Outcome.record ⟨.requests, "prepared consumer create request on " ++ subject⟩
  let payload ← config.encodeRequest d stream
  return ⟨subject, config, Utf8.encode payload⟩

/-- Whether the request asks for the very configuration it was prepared from. -/
def keepsBase (base : Option Configuration) (o : Overrides) : Bool := base.isSome && o.isEmpty

/-- What the server says went wrong, if it does. -/
def reportedError (doc : Members) : Except Fault Unit := do
  let e := doc.get Document.errorTag
  if e.isNull then return ()
  throw (.api (ApiError.ofMembers (← Document.object Document.errorTag e)))

/-- The configuration that the server applied. -/
def parseResponse (d : Dialect) (source : Value) : Outcome Configuration := do
  let doc ← Document.load d source
  reportedError doc
  Configuration.ofMembers
    (← Document.object Document.configurationTag (doc.get Document.configurationTag))

end CreateRequest

end StreamConsumer
