import StreamConsumer.Binary64.Shortest
import StreamConsumer.Text.Quoted
import StreamConsumer.Value.Basic

/-!
# Values in messages

A value appears in messages in one of two forms. Its literal, `Value.literal`, tells it from every
value of another kind: texts are quoted, policies carry their names. Its plain form, `Value.display`,
is what stands in subjects and sentences: a text stands for itself and a policy for its word.
-/

namespace StreamConsumer

/-- Numbers in messages are written by position from `10 ^ -4` up to, but not including, `10 ^ 16`;
an exponent has at least two digits. -/
def literalLayout : DecimalLayout := ⟨-4, 15, 2⟩

namespace Value

/-- A binary64 number in a message. -/
def floatLiteral : Binary64 → Text
  | .finite negative significand exponent => literalLayout.finite negative significand exponent
  | .infinite false => "inf"
  | .infinite true => "-inf"

/-- A policy in a message: vocabulary, name and word. -/
def policyLiteral (p : Policy) : Text :=
  "<" ++ p.vocabulary.name ++ "." ++ p.name ++ ": " ++ Quoted.ofText p.wire ++ ">"

mutual

/-- The literal of a value. -/
def literal : Value → Text
  | null => "None"
  | bool true => "True"
  | bool false => "False"
  | int i => Text.ofInt i
  | float x => floatLiteral x
  | nan _ => "nan"
  | text t => Quoted.ofText t
  | policy p => policyLiteral p
  | list items => "[" ++ Text.joined ", " (literals items) ++ "]"
  | dict members => "\x7b" ++ Text.joined ", " (memberLiterals members) ++ "\x7d"
  | bytes .fixed s => Quoted.ofBytes s
  | bytes .growing s => "bytearray(" ++ Quoted.ofGrowingBytes s ++ ")"
  | bytes .view _ => "<memory>"
  | dateTime d => d.literal
  | duration d => d.literal
  | foreign _ => "<Opaque object>"

/-- The literals of values in order. -/
def literals : List Value → List Text
  | [] => []
  | v :: vs => literal v :: literals vs

/-- The literals of members in order. -/
def memberLiterals : List (Value × Value) → List Text
  | [] => []
  | (k, v) :: ms => (literal k ++ ": " ++ literal v) :: memberLiterals ms

end

/-- The plain form of a value. -/
def display : Value → Text
  | text t => t
  | policy p => p.wire
  | dateTime d => d.text
  | duration d => d.clockText
  | v => v.literal

end Value

end StreamConsumer
