import StreamConsumer.Text.CodePoint

/-!
# Policies

Three closed vocabularies govern a consumer: where delivery starts, how messages are acknowledged,
how fast they are replayed. Each member has a name and a word on the wire. Words are unique within a
vocabulary, `Vocabulary.ofWire?_wire`, but not across: `all` is a word of two.
-/

namespace StreamConsumer

/-- Where in a stream delivery starts. -/
inductive DeliverPolicy where
  /-- With the first message. -/
  | all
  /-- With the last message. -/
  | last
  /-- With the next message. -/
  | new
  /-- With the message of a given sequence number. -/
  | byStartSequence
  /-- With the first message after a given time. -/
  | byStartTime
  deriving DecidableEq, Repr

/-- How messages are acknowledged. -/
inductive AckPolicy where
  /-- Not at all. -/
  | none
  /-- One acknowledgement counts for all messages before it too. -/
  | all
  /-- Each message on its own. -/
  | explicit
  deriving DecidableEq, Repr

/-- How fast stored messages are delivered. -/
inductive ReplayPolicy where
  /-- As fast as possible. -/
  | instant
  /-- At the pace at which they came in. -/
  | paced
  deriving DecidableEq, Repr

/-- A member of one of the vocabularies. -/
inductive Policy where
  /-- A member of the delivery vocabulary. -/
  | deliver (p : DeliverPolicy)
  /-- A member of the acknowledgement vocabulary. -/
  | ack (p : AckPolicy)
  /-- A member of the replay vocabulary. -/
  | replay (p : ReplayPolicy)
  deriving DecidableEq, Repr

/-- The vocabularies. -/
inductive Vocabulary where
  /-- Where delivery starts. -/
  | deliver
  /-- How messages are acknowledged. -/
  | ack
  /-- How fast messages are replayed. -/
  | replay
  deriving DecidableEq, Repr

namespace Policy

/-- The vocabulary of a member. -/
def vocabulary : Policy → Vocabulary
  | deliver _ => .deliver
  | ack _ => .ack
  | replay _ => .replay

/-- The name of a member. -/
def name : Policy → Text
  | deliver .all => "ALL"
  | deliver .last => "LAST"
  | deliver .new => "NEW"
  | deliver .byStartSequence => "BY_START_SEQUENCE"
  | deliver .byStartTime => "BY_START_TIME"
  | ack .none => "NONE"
  | ack .all => "ALL"
  | ack .explicit => "EXPLICIT"
  | replay .instant => "INSTANT"
  | replay .paced => "ORIGINAL"

/-- The word of a member on the wire. -/
def wire : Policy → Text
  | deliver .all => "all"
  | deliver .last => "last"
  | deliver .new => "new"
  | deliver .byStartSequence => "by_start_sequence"
  | deliver .byStartTime => "by_start_time"
  | ack .none => "none"
  | ack .all => "all"
  | ack .explicit => "explicit"
  | replay .instant => "instant"
  | replay .paced => "original"

end Policy

namespace Vocabulary

/-- The name of a vocabulary. -/
def name : Vocabulary → Text
  | deliver => "DeliverPolicy"
  | ack => "AckPolicy"
  | replay => "ReplayPolicy"

/-- The members of a vocabulary, in order. -/
def members : Vocabulary → List Policy
  | deliver => [.deliver .all, .deliver .last, .deliver .new, .deliver .byStartSequence,
      .deliver .byStartTime]
  | ack => [.ack .none, .ack .all, .ack .explicit]
  | replay => [.replay .instant, .replay .paced]

/-- The vocabularies, in order. -/
def all : List Vocabulary := [deliver, ack, replay]

/-- The member with a given word on the wire. -/
def ofWire? (v : Vocabulary) (word : Text) : Option Policy := v.members.find? (·.wire == word)

/-- The vocabulary with a given name. -/
def ofName? (name : Text) : Option Vocabulary := all.find? (·.name == name)

/-- The member with a given name. -/
def ofMemberName? (v : Vocabulary) (name : Text) : Option Policy := v.members.find? (·.name == name)

/-- A member is found by its word. -/
theorem ofWire?_wire (p : Policy) : p.vocabulary.ofWire? p.wire = some p := by
  rcases p with p | p | p <;> cases p <;> decide

/-- What is found is a member of the vocabulary with that word. -/
theorem ofWire?_eq_some {v : Vocabulary} {word : Text} {p : Policy} (h : v.ofWire? word = some p) :
    p.vocabulary = v ∧ p.wire = word := by
  have hw := List.find?_some h
  refine ⟨?_, by simpa using hw⟩
  have hp : p ∈ v.members := List.mem_of_find?_eq_some h
  cases v <;> simp only [members, List.mem_cons, List.not_mem_nil, or_false] at hp
  · rcases hp with rfl | rfl | rfl | rfl | rfl <;> rfl
  · rcases hp with rfl | rfl | rfl <;> rfl
  · rcases hp with rfl | rfl <;> rfl

end Vocabulary

end StreamConsumer
