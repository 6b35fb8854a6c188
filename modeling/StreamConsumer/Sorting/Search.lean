/-!
# Places in a run

A run is a sequence of items that are in order already. These searches find out how many items at the
front of a run belong before a given place, where a test on an item says whether it does:
`Sorting.bisect` by halving, `Sorting.gallop` by growing steps from a guess and halving after that.

A comparison may fail, and then the first one that fails is what is reported. It may also contradict
itself, as one with "not a number" does. The outcome is then still settled, by the order in which
items are compared; so that order is part of what these functions do.
-/

namespace StreamConsumer.Sorting

/-- Whether one item comes before another, if that can be said. -/
abbrev Comparison (ε α : Type) := α → α → Except ε Bool

/-- A test on items that can fail. -/
abbrev Test (ε α : Type) := α → Except ε Bool

namespace Test

/-- The test that passes what another one rejects. -/
def negated {ε α : Type} (t : Test ε α) : Test ε α := fun x => (t x).map not

/-- The outcome of a test at a place of a run; beyond the run nothing passes. -/
def at? {ε α : Type} (t : Test ε α) (run : Array α) (i : Nat) : Except ε Bool :=
  match run[i]? with
  | some x => t x
  | none => .ok false

end Test

variable {ε α : Type}

/-- How many items at the front of a run pass a test, where those before `low` do and those from
`high` on do not. Each step halves what is between; at most `fuel` steps. -/
def bisect (front : Test ε α) (run : Array α) : Nat → Nat → Nat → Except ε Nat
  | 0, low, _ => .ok low
  | fuel + 1, low, high =>
    if low < high then do
      let middle := low + (high - low) / 2
      if ← front.at? run middle then bisect front run fuel (middle + 1) high
      else bisect front run fuel low middle
    else .ok low

/-- Distances that grow as long as they pass: the last one that passed and the first one that did
not, or the bound if none failed below it. Each distance is twice the one before it, and one more; at
most `fuel` of them are tried. -/
def stretch (passes : Test ε Nat) (bound : Nat) : Nat → Nat → Nat → Except ε (Nat × Nat)
  | 0, last, next => .ok (last, min next bound)
  | fuel + 1, last, next =>
    if next < bound then do
      if ← passes next then stretch passes bound fuel next (2 * next + 1)
      else return (last, next)
    else .ok (last, bound)

/-- How many items at the front of a run pass a test, searched for from a place in the run. -/
def gallop (front : Test ε α) (run : Array α) (hint : Nat) : Except ε Nat := do
  if ← front.at? run hint then
    let (last, next) ← stretch (fun d => front.at? run (hint + d)) (run.size - hint) run.size 0 1
    bisect front run run.size (hint + last + 1) (hint + next)
  else
    let (last, next) ← stretch (fun d => front.negated.at? run (hint - d)) (hint + 1) run.size 0 1
    bisect front run run.size (hint + 1 - next) (hint - last)

end StreamConsumer.Sorting
