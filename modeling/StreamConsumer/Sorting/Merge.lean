import StreamConsumer.Sorting.Search

/-!
# Merging two runs

Two neighbouring runs are merged from the end at which the shorter one lies, after the items at
either end that are in place already have been set aside. At first the items are compared one by one.
When one run has won as often in a row as a threshold says, the merge gallops: it looks for how many
items of a run come next and moves them together. Galloping that pays lowers the threshold for it, and
leaving it raises the threshold, so each merge hands its threshold on to the next.

In either direction the last item of `Merging.first` is known to come last of all. A merge is over
when no other item of that run is left, or none of the other run: `Merging.isOver`.
-/

namespace StreamConsumer.Sorting

/-- The end from which runs are merged. -/
inductive Direction where
  /-- From the front. -/
  | forward
  /-- From the back. -/
  | backward
  deriving DecidableEq, Repr

/-- The two runs of a merge. -/
inductive Side where
  /-- The run whose last item comes last of all. -/
  | first
  /-- The other run. -/
  | second
  deriving DecidableEq, Repr

variable {ε α : Type}

namespace Direction

/-- Whether an item of the second run goes before one of the first. -/
def takesSecond (d : Direction) (less : Comparison ε α) (x y : α) : Except ε Bool :=
  match d with
  | forward => less y x
  | backward => less x y

/-- How many items in front pass a test. From the back, the items are searched for where they lie. -/
def leading (d : Direction) (passes : Test ε α) (items : List α) : Except ε Nat :=
  match d with
  | forward => gallop passes items.toArray 0
  | backward =>
    (gallop passes.negated items.reverse.toArray (items.length - 1)).map (items.length - ·)

/-- The run in which galloping begins: it is the left one. -/
def leftSide : Direction → Side
  | forward => .first
  | backward => .second

/-- The run in which galloping goes on. -/
def rightSide : Direction → Side
  | forward => .second
  | backward => .first

end Direction

/-- A merge under way. The items of a run stand in the order in which they are taken. -/
structure Merging (α : Type) where
  /-- How many wins in a row make the merge gallop. -/
  threshold : Nat
  /-- The items merged, the latest one first. -/
  merged : List α
  /-- What is left of the first run. -/
  first : List α
  /-- What is left of the second run. -/
  second : List α

namespace Merging

/-- Whether the rest is known: all of the second run, then all of the first. -/
def isOver (m : Merging α) : Bool := m.first.length ≤ 1 || m.second.isEmpty

/-- All items, in the order in which they were taken. -/
def items (m : Merging α) : List α := m.merged.reverse ++ m.second ++ m.first

/-- Takes a number of items from a run. -/
def take (m : Merging α) (side : Side) (count : Nat) : Merging α :=
  match side with
  | .first =>
    { m with merged := (m.first.take count).reverse ++ m.merged, first := m.first.drop count }
  | .second =>
    { m with merged := (m.second.take count).reverse ++ m.merged, second := m.second.drop count }

/-- Takes an item from a run unless the merge is over. -/
def takeOne (m : Merging α) (side : Side) : Merging α := if m.isOver then m else m.take side 1

/-- The merge with a new threshold unless it is over. -/
def adjust (m : Merging α) (f : Nat → Nat) : Merging α :=
  if m.isOver then m else { m with threshold := f m.threshold }

end Merging

/-- As many wins in a row make a merge gallop at first, and keep it galloping. -/
def leastGallop : Nat := 7

/-- How a merge takes items. -/
inductive Pace where
  /-- One by one; the first run, or the second, has won so often in a row. -/
  | single (firstWins secondWins : Nat)
  /-- Galloping, after galloping before or not. -/
  | galloping (again : Bool)

/-- Takes the items of one run that go before the next item of the other, and then that item. The
number of the items taken together comes with the merge. -/
def gallopIn (d : Direction) (less : Comparison ε α) (side : Side) (m : Merging α) :
    Except ε (Nat × Merging α) :=
  match m.first, m.second with
  | x :: _ :: _, y :: _ => do
    match side with
    | .first =>
      let count ← d.leading (Test.negated fun z => d.takesSecond less z y) m.first
      return (count, (m.take .first count).takeOne .second)
    | .second =>
      let count ← d.leading (fun z => d.takesSecond less x z) m.second
      return (count, (m.take .second count).takeOne .first)
  | _, _ => .ok (0, m)

/-- Merges to the end. Every step takes an item, so their number bounds that of the steps. -/
def advance (d : Direction) (less : Comparison ε α) :
    Nat → Pace → Merging α → Except ε (Merging α)
  | 0, _, m => .ok m
  | fuel + 1, pace, m =>
    match m.first, m.second with
    | x :: _ :: _, y :: _ =>
      match pace with
      | .single firstWins secondWins => do
        if ← d.takesSecond less x y then
          let m := m.take .second 1
          if m.threshold ≤ secondWins + 1 then
            advance d less fuel (.galloping false) m
          else advance d less fuel (.single 0 (secondWins + 1)) m
        else
          let m := m.take .first 1
          if m.threshold ≤ firstWins + 1 then
            advance d less fuel (.galloping false) m
          else advance d less fuel (.single (firstWins + 1) 0) m
      | .galloping again => do
        let m := if again && 1 < m.threshold then m.adjust (· - 1) else m
        let (left, m) ← gallopIn d less d.leftSide m
        let (right, m) ← gallopIn d less d.rightSide m
        if leastGallop ≤ left || leastGallop ≤ right then
          advance d less fuel (.galloping true) m
        else advance d less fuel (.single 0 0) (m.adjust (· + 1))
    | _, _ => .ok m

/-- Merges two neighbouring runs, neither of them empty. The new threshold comes first. -/
def mergeRuns (less : Comparison ε α) (threshold : Nat) (left right : List α) :
    Except ε (Nat × List α) :=
  match right with
  | [] => .ok (threshold, left)
  | leastRight :: _ => do
    let settled ← gallop (Test.negated fun x => less leastRight x) left.toArray 0
    let open₁ := left.drop settled
    match open₁.getLast? with
    | none => return (threshold, left ++ right)
    | some greatestLeft =>
      let count ← gallop (fun x => less x greatestLeft) right.toArray (right.length - 1)
      let open₂ := right.take count
      let size := open₁.length + open₂.length
      if count = 0 then return (threshold, left ++ right)
      else if open₁.length ≤ count then
        let m : Merging α := ⟨threshold, [], open₁, open₂⟩
        let m ← advance .forward less size (.single 0 0) (m.take .second 1)
        return (m.threshold, left.take settled ++ m.items ++ right.drop count)
      else
        let m : Merging α := ⟨threshold, [], open₂.reverse, open₁.reverse⟩
        let m ← advance .backward less size (.single 0 0) (m.take .second 1)
        return (m.threshold, left.take settled ++ m.items.reverse ++ right.drop count)

end StreamConsumer.Sorting
