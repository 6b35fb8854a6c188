import StreamConsumer.Configuration.Field

/-!
# Configurations

A `Configuration` holds a value for every field. No kind is checked before it is encoded, so any value
may stand anywhere. `Configuration.get` and `Configuration.set` see it as a record: what is set in
one field is found there and nowhere else, `Configuration.get_set`.
-/

namespace StreamConsumer

/-- The settings of a consumer. -/
structure Configuration where
  /-- The name under which the consumer outlives its subscriptions. -/
  durable : Value := Field.durable.default
  /-- The subject that messages are pushed to. -/
  deliverSubject : Value := Field.deliverSubject.default
  /-- Where delivery starts. -/
  deliverPolicy : Value := Field.deliverPolicy.default
  /-- The sequence number to start with. -/
  startSequence : Value := Field.startSequence.default
  /-- The time to start with. -/
  startTime : Value := Field.startTime.default
  /-- How messages are acknowledged. -/
  ackPolicy : Value := Field.ackPolicy.default
  /-- How long the server waits for an acknowledgement. -/
  ackWait : Value := Field.ackWait.default
  /-- How often a message is delivered at most. -/
  maxDeliver : Value := Field.maxDeliver.default
  /-- The subject that messages are chosen by. -/
  filterSubject : Value := Field.filterSubject.default
  /-- How fast messages are replayed. -/
  replayPolicy : Value := Field.replayPolicy.default
  /-- How often acknowledgements are sampled. -/
  sampleFrequency : Value := Field.sampleFrequency.default
  /-- The greatest rate of delivery, in bits per second. -/
  rateLimit : Value := Field.rateLimit.default
  /-- How many messages may wait for an acknowledgement. -/
  maxAckPending : Value := Field.maxAckPending.default
  deriving Repr

namespace Configuration

/-- The configuration in which nothing is given. -/
def standard : Configuration := {}

/-- The value of a field. -/
def get (c : Configuration) : Field → Value
  | .durable => c.durable
  | .deliverSubject => c.deliverSubject
  | .deliverPolicy => c.deliverPolicy
  | .startSequence => c.startSequence
  | .startTime => c.startTime
  | .ackPolicy => c.ackPolicy
  | .ackWait => c.ackWait
  | .maxDeliver => c.maxDeliver
  | .filterSubject => c.filterSubject
  | .replayPolicy => c.replayPolicy
  | .sampleFrequency => c.sampleFrequency
  | .rateLimit => c.rateLimit
  | .maxAckPending => c.maxAckPending

/-- A configuration with the value of one field replaced. -/
def set (c : Configuration) (f : Field) (v : Value) : Configuration :=
  match f with
  | .durable => { c with durable := v }
  | .deliverSubject => { c with deliverSubject := v }
  | .deliverPolicy => { c with deliverPolicy := v }
  | .startSequence => { c with startSequence := v }
  | .startTime => { c with startTime := v }
  | .ackPolicy => { c with ackPolicy := v }
  | .ackWait => { c with ackWait := v }
  | .maxDeliver => { c with maxDeliver := v }
  | .filterSubject => { c with filterSubject := v }
  | .replayPolicy => { c with replayPolicy := v }
  | .sampleFrequency => { c with sampleFrequency := v }
  | .rateLimit => { c with rateLimit := v }
  | .maxAckPending => { c with maxAckPending := v }

/-- What is set in one field is found there and nowhere else. -/
theorem get_set (c : Configuration) (f g : Field) (v : Value) :
    (c.set f v).get g = if g = f then v else c.get g := by
  cases f <;> cases g <;> rfl

/-- Where nothing is given the defaults hold. -/
@[simp] theorem get_standard (f : Field) : standard.get f = f.default := by cases f <;> rfl

/-- A configuration is its fields. -/
theorem ext_get {c d : Configuration} (h : ∀ f, c.get f = d.get f) : c = d := by
  have h₁ := h .durable
  have h₂ := h .deliverSubject
  have h₃ := h .deliverPolicy
  have h₄ := h .startSequence
  have h₅ := h .startTime
  have h₆ := h .ackPolicy
  have h₇ := h .ackWait
  have h₈ := h .maxDeliver
  have h₉ := h .filterSubject
  have h₁₀ := h .replayPolicy
  have h₁₁ := h .sampleFrequency
  have h₁₂ := h .rateLimit
  have h₁₃ := h .maxAckPending
  cases c; cases d
  simp only [get] at *
  subst h₁ h₂ h₃ h₄ h₅ h₆ h₇ h₈ h₉ h₁₀ h₁₁ h₁₂ h₁₃
  rfl

/-! ### Replacing fields by name -/

/-- A configuration with values replaced by name. A name that no field has is refused, the first one
of them being reported. -/
def evolve (c : Configuration) (params : List (Text × Value)) : Except Fault Configuration :=
  match params.find? fun p => (Field.ofName? p.1).isNone with
  | some (name, _) => .error (.parameter "ConsumerConfiguration" name)
  | none => .ok (params.foldl (fun c p =>
      match Field.ofName? p.1 with
      | some f => c.set f p.2
      | none => c) c)

/-- A configuration from values by name. -/
def ofParams (params : List (Text × Value)) : Except Fault Configuration := standard.evolve params

/-- Fields cannot be assigned. -/
def assign (_ : Configuration) (name : Text) (_ : Value) : Except Fault Configuration :=
  .error (.setField name)

/-- Fields cannot be removed. -/
def remove (_ : Configuration) (name : Text) : Except Fault Configuration :=
  .error (.removeField name)

/-! ### As text and under comparison -/

/-- The fields with their values, in order. -/
def literal (c : Configuration) : Text :=
  let fields := Field.all.map fun f => f.name ++ "=" ++ (c.get f).literal
  "ConsumerConfiguration(" ++ Text.joined ", " fields ++ ")"

/-- Configurations are equal if their fields are. -/
def equal (c d : Configuration) : Bool := Field.all.all fun f => (c.get f).equal (d.get f)

/-- The first value that cannot be hashed, if there is one, makes the configuration unhashable. -/
def hashFault? (c : Configuration) : Option Fault :=
  (Field.all.find? fun f => !(c.get f).isHashable).map fun f => .unhashable (c.get f).kindName

/-- Whether the hashes of two configurations agree, if these are equal; equal ones have one hash. A
value that cannot be hashed is a fault even if the configurations differ. -/
def hashesAgree (c d : Configuration) : Except Fault (Option Bool) :=
  match c.hashFault?, d.hashFault? with
  | some e, _ => .error e
  | none, some e => .error e
  | none, none => .ok (if c.equal d then some true else none)

end Configuration

end StreamConsumer
