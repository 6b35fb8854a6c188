import StreamConsumer.Sorting.Runs
import StreamConsumer.Value.Basic

/-!
# Members in the order of their keys

Members whose keys are all texts are ordered by code point. Keys of other kinds are compared as
numbers, byte strings, durations or instants, and may not be comparable at all; then the first
comparison that fails is reported, in the order in which `Sorting.sort` compares.
-/

namespace StreamConsumer

/-- Why two keys have no order. -/
inductive OrderError where
  /-- The kinds have no order between them. -/
  | kinds (left right : Text)
  /-- One date has an offset and the other has none. -/
  | clocks
  deriving DecidableEq, Repr

namespace KeyOrder

/-! ### By code point -/

/-- Puts a keyed item in front of the first one with a greater key. -/
def insertByText {α : Type} (key : Text) (a : α) : List (Text × α) → List (Text × α)
  | [] => [(key, a)]
  | (k, b) :: rest =>
    if key.lt k then (key, a) :: (k, b) :: rest else (k, b) :: insertByText key a rest

/-- Keyed items in the order of their keys. -/
def byText {α : Type} : List (Text × α) → List (Text × α)
  | [] => []
  | (key, a) :: rest => insertByText key a (byText rest)

/-! ### By comparison -/

/-- Whether one byte string comes before another. -/
def bytesBefore : List UInt8 → List UInt8 → Bool
  | _, [] => false
  | [], _ :: _ => true
  | a :: s, b :: t => if a = b then bytesBefore s t else a < b

/-- Whether one key comes before another. -/
def before (v w : Value) : Except OrderError Bool :=
  match v.number?, w.number?, v.text?, w.text? with
  | some x, some y, _, _ => .ok (x.lt y)
  | _, _, some s, some t => .ok (s.lt t)
  | _, _, _, _ =>
    match v, w with
    | .nan _, .nan _ => .ok false
    | .nan _, w => if w.number?.isSome then .ok false else clash v w
    | v, .nan _ => if v.number?.isSome then .ok false else clash v w
    | .bytes .fixed s, .bytes .fixed t => .ok (bytesBefore s t)
    | .duration d, .duration e => .ok (d.micros < e.micros)
    | .dateTime d, .dateTime e =>
      if d.offset.isSome = e.offset.isSome then .ok (d.instant < e.instant) else .error .clocks
    | v, w => clash v w
where
  /-- The report of two kinds without an order between them. -/
  clash (v w : Value) : Except OrderError Bool :=
    .error (.kinds v.qualifiedKindName w.qualifiedKindName)

/-- Items in the order of their keys, as far as comparison goes. -/
def byComparison {α : Type} (items : List (Value × α)) : Except OrderError (List (Value × α)) :=
  Sorting.sort (fun a b => before a.1 b.1) items

end KeyOrder

end StreamConsumer
