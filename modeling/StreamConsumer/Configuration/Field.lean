import StreamConsumer.Document

/-!
# The fields of a configuration

A configuration has thirteen fields. Each has a name, by which it is set, a tag, under which it
travels, a kind and a value that holds where none is given. Fields are declared, shown, read and
compared in the order of `Field.all`; they are written in the order of `Field.wireOrder`. Both orders
list every field once, and neither names nor tags repeat.
-/

namespace StreamConsumer

/-- A field of a configuration. -/
inductive Field where
  /-- The name under which the consumer outlives its subscriptions. -/
  | durable
  /-- The subject that messages are pushed to. -/
  | deliverSubject
  /-- Where delivery starts. -/
  | deliverPolicy
  /-- The sequence number to start with. -/
  | startSequence
  /-- The time to start with. -/
  | startTime
  /-- How messages are acknowledged. -/
  | ackPolicy
  /-- How long the server waits for an acknowledgement. -/
  | ackWait
  /-- How often a message is delivered at most. -/
  | maxDeliver
  /-- The subject that messages are chosen by. -/
  | filterSubject
  /-- How fast messages are replayed. -/
  | replayPolicy
  /-- How often acknowledgements are sampled. -/
  | sampleFrequency
  /-- The greatest rate of delivery, in bits per second. -/
  | rateLimit
  /-- How many messages may wait for an acknowledgement. -/
  | maxAckPending
  deriving DecidableEq, Repr

namespace Field

/-- The name of a field. -/
def name : Field → Text
  | durable => "durable"
  | deliverSubject => "deliver_subject"
  | deliverPolicy => "deliver_policy"
  | startSequence => "start_sequence"
  | startTime => "start_time"
  | ackPolicy => "ack_policy"
  | ackWait => "ack_wait"
  | maxDeliver => "max_deliver"
  | filterSubject => "filter_subject"
  | replayPolicy => "replay_policy"
  | sampleFrequency => "sample_frequency"
  | rateLimit => "rate_limit"
  | maxAckPending => "max_ack_pending"

/-- The tag of a field on the wire. -/
def tag : Field → Text
  | durable => "durable_name"
  | deliverSubject => "deliver_subject"
  | deliverPolicy => "deliver_policy"
  | startSequence => "opt_start_seq"
  | startTime => "opt_start_time"
  | ackPolicy => "ack_policy"
  | ackWait => "ack_wait"
  | maxDeliver => "max_deliver"
  | filterSubject => "filter_subject"
  | replayPolicy => "replay_policy"
  | sampleFrequency => "sample_freq"
  | rateLimit => "rate_limit_bps"
  | maxAckPending => "max_ack_pending"

/-- What a field carries. -/
def kind : Field → FieldKind
  | durable => .text
  | deliverSubject => .text
  | deliverPolicy => .policy .deliver
  | startSequence => .integer
  | startTime => .date
  | ackPolicy => .policy .ack
  | ackWait => .duration
  | maxDeliver => .integer
  | filterSubject => .text
  | replayPolicy => .policy .replay
  | sampleFrequency => .text
  | rateLimit => .integer
  | maxAckPending => .integer

/-- The value of a field where none is given. -/
def default : Field → Value
  | durable => .null
  | deliverSubject => .null
  | deliverPolicy => .policy (.deliver .all)
  | startSequence => .int 0
  | startTime => .null
  | ackPolicy => .policy (.ack .explicit)
  | ackWait => .duration ⟨30000000, by decide, by decide⟩
  | maxDeliver => .int (-1)
  | filterSubject => .null
  | replayPolicy => .policy (.replay .instant)
  | sampleFrequency => .null
  | rateLimit => .int 0
  | maxAckPending => .int 0

/-- The fields in the order in which they are declared. -/
def all : List Field :=
  [durable, deliverSubject, deliverPolicy, startSequence, startTime, ackPolicy, ackWait, maxDeliver,
    filterSubject, replayPolicy, sampleFrequency, rateLimit, maxAckPending]

/-- The fields in the order in which they are written. -/
def wireOrder : List Field :=
  [durable, deliverSubject, deliverPolicy, startSequence, startTime, ackPolicy, ackWait, maxDeliver,
    maxAckPending, filterSubject, replayPolicy, sampleFrequency, rateLimit]

/-- The field with a given name. -/
def ofName? (name : Text) : Option Field := all.find? (·.name == name)

/-- Whether a key of a document is the tag of a field. -/
def isTag (key : Value) : Bool := all.any fun f => key.equal (.text f.tag)

/-- Every field is declared. -/
theorem mem_all (f : Field) : f ∈ all := by cases f <;> decide

/-- Every field is written. -/
theorem mem_wireOrder (f : Field) : f ∈ wireOrder := by cases f <;> decide

/-- A field is found by its name. -/
theorem ofName?_name (f : Field) : ofName? f.name = some f := by cases f <;> decide

/-- No two fields share a tag. -/
theorem tag_injective {f g : Field} (h : f.tag = g.tag) : f = g := by
  revert h; cases f <;> cases g <;> decide

end Field

namespace Document

/-- The tag of the stream in a request. -/
def streamTag : Text := "stream_name"

/-- The tag of the configuration in requests and answers. -/
def configurationTag : Text := "config"

/-- The tag of the error in an answer. -/
def errorTag : Text := "error"

/-- Every tag that requests and answers use. -/
def tags : List Text :=
  [streamTag, configurationTag, errorTag] ++ Field.wireOrder.map Field.tag

end Document

end StreamConsumer
