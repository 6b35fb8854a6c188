import StreamConsumer.Sorting.Merge

/-!
# Sorting by runs

A list is sorted by cutting it into runs and merging neighbours. A run is the longest piece that is
in order already, or in strictly reverse order, which is turned round; one that is too short is
filled up with the items after it, each put into its place by halving.

Which neighbours are merged first follows from the places of the runs. The boundary between two runs
has a power: the number of binary digits that tell their midpoints apart, as fractions of the whole
list. Boundaries of greater power are merged before those of smaller power.
-/

namespace StreamConsumer.Sorting

variable {ε α : Type}

/-! ### Runs -/

/-- The items that go on a run, and those after it. The run goes on while the comparison of an item
with the one in front of it comes out as `falling`. -/
def splitRun (less : Comparison ε α) (falling : Bool) (last : α) :
    List α → Except ε (List α × List α)
  | [] => .ok ([], [])
  | a :: rest => do
    if (← less a last) = falling then
      let (run, rest) ← splitRun less falling a rest
      return (a :: run, rest)
    else return ([], a :: rest)

/-- The run at the front of a list, in order, and what follows it. -/
def naturalRun (less : Comparison ε α) : List α → Except ε (List α × List α)
  | a :: b :: rest => do
    let falling ← less b a
    let (run, rest) ← splitRun less falling b rest
    let run := a :: b :: run
    return (if falling then run.reverse else run, rest)
  | short => .ok (short, [])

/-- Items put into their places in a run one by one. -/
def insertAll (less : Comparison ε α) (run : List α) : List α → Except ε (List α)
  | [] => .ok run
  | a :: rest => do
    let place ← bisect (Test.negated fun x => less a x) run.toArray run.length 0 run.length
    insertAll less (run.take place ++ a :: run.drop place) rest

/-- The run at the front of a list, filled up to a length, and what follows it. -/
def nextRun (less : Comparison ε α) (length : Nat) (items : List α) :
    Except ε (List α × List α) := do
  let (run, rest) ← naturalRun less items
  let missing := length - run.length
  return (← insertAll less run (rest.take missing), rest.drop missing)

/-- The first six binary digits of a length, as a number, and one more if there are other digits that
are not all zero; at most `fuel` digits are dropped. -/
def leadingDigits : Nat → Nat → Nat → Nat
  | 0, n, dropped => n + dropped
  | fuel + 1, n, dropped =>
    if n < 64 then n + dropped else leadingDigits fuel (n / 2) (max dropped (n % 2))

/-- The least length of a run in a list. Up to 63 items are one run; of more, the runs are such that
their number is a power of two or a little less. -/
def leastRun (size : Nat) : Nat := leadingDigits size size 0

/-! ### Boundaries -/

/-- The first binary digit after the point in which two fractions of `size` differ, counted from
one; the fractions are below two, and at most `fuel` digits are looked at. -/
def differingDigit (size : Nat) : Nat → Nat → Nat → Nat
  | 0, _, _ => 0
  | fuel + 1, a, b =>
    if size ≤ a then 1 + differingDigit size fuel (2 * (a - size)) (2 * (b - size))
    else if size ≤ b then 1
    else 1 + differingDigit size fuel (2 * a) (2 * b)

/-- The power of the boundary between a run that begins at `start` and the run after it, in a list of
`size` items. -/
def boundaryPower (size start left right : Nat) : Nat :=
  let midpoint := 2 * start + left
  differingDigit size size midpoint (midpoint + left + right)

/-! ### Pending runs -/

/-- A run that waits to be merged. -/
structure Run (α : Type) where
  /-- Where it begins in the list. -/
  start : Nat
  /-- Its items. -/
  items : List α
  /-- The power of the boundary behind it, once there is one. -/
  power : Nat

/-- The runs found so far. -/
structure Pending (α : Type) where
  /-- The threshold of the next merge. -/
  threshold : Nat
  /-- The runs, the last one first. -/
  runs : List (Run α)

namespace Pending

/-- The last two runs merged. -/
def mergeLast (less : Comparison ε α) (p : Pending α) : Except ε (Pending α) :=
  match p.runs with
  | right :: left :: rest => do
    let (threshold, items) ← mergeRuns less p.threshold left.items right.items
    return ⟨threshold, { left with items := items } :: rest⟩
  | _ => .ok p

/-- The two runs before the last one merged. -/
def mergeBeforeLast (less : Comparison ε α) (p : Pending α) : Except ε (Pending α) :=
  match p.runs with
  | last :: rest => do
    let merged ← mergeLast less { p with runs := rest }
    return { merged with runs := last :: merged.runs }
  | _ => .ok p

/-- The last runs merged as long as the boundary between them has a greater power than a given one; at
most `fuel` merges. -/
def mergeAbove (less : Comparison ε α) (power : Nat) : Nat → Pending α → Except ε (Pending α)
  | 0, p => .ok p
  | fuel + 1, p =>
    match p.runs with
    | _ :: left :: _ =>
      if power < left.power then mergeLast less p >>= mergeAbove less power fuel else .ok p
    | _ => .ok p

/-- A new run behind the others, in a list of `size` items. -/
def push (less : Comparison ε α) (size : Nat) (p : Pending α) (items : List α) :
    Except ε (Pending α) :=
  match p.runs with
  | [] => .ok { p with runs := [⟨0, items, 0⟩] }
  | last :: _ => do
    let power := boundaryPower size last.start last.items.length items.length
    let merged ← mergeAbove less power p.runs.length p
    let before := match merged.runs with
      | [] => []
      | left :: rest => { left with power := power } :: rest
    return { merged with runs := ⟨last.start + last.items.length, items, 0⟩ :: before }

/-- All runs merged, the shorter neighbour of the run before the last one first; at most `fuel`
merges. -/
def mergeAll (less : Comparison ε α) : Nat → Pending α → Except ε (Pending α)
  | 0, p => .ok p
  | fuel + 1, p =>
    match p.runs with
    | right :: _ :: left :: _ =>
      if left.items.length < right.items.length then
        mergeBeforeLast less p >>= mergeAll less fuel
      else mergeLast less p >>= mergeAll less fuel
    | _ :: _ :: _ => mergeLast less p >>= mergeAll less fuel
    | _ => .ok p

/-- Runs of a list of `size` items, cut off its rest one by one; at most `fuel` runs. -/
def cut (less : Comparison ε α) (size : Nat) : Nat → Pending α → List α → Except ε (Pending α)
  | 0, p, _ => .ok p
  | _ + 1, p, [] => .ok p
  | fuel + 1, p, a :: rest => do
    let (run, rest) ← nextRun less (leastRun size) (a :: rest)
    cut less size fuel (← push less size p run) rest

end Pending

/-- A list in order. Items of which neither comes before the other keep theirs. -/
def sort (less : Comparison ε α) (items : List α) : Except ε (List α) := do
  let p ← Pending.cut less items.length items.length ⟨leastGallop, []⟩ items
  let p ← p.mergeAll less p.runs.length
  return p.runs.flatMap Run.items

end StreamConsumer.Sorting
