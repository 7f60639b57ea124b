import SymbolGraph.Order.Merge
set_option autoImplicit false

/-!
# Sorting by runs

A list is sorted by finding the runs that are in it, and merging neighbours. A run goes up, or
down strictly and is turned round; a run that is too short is filled up by bisection. Which
neighbours are merged first follows from where the middle between two runs lies in the list:
each border between runs has a power, and a border of greater power is merged away first.

Equal items keep their order. For comparisons that always answer and form an order the outcome
is the sorted list; otherwise the method decides, and if a comparison that it makes has no
answer there is no outcome.
-/

namespace SymbolGraph.Order

variable {α : Type}

/-! ## Runs -/

/-- The items that go on with a run after its last item, and the rest. A run goes on down as
long as each item is less than the one before, and up as long as it is not. -/
def takeRun (less : Less α) (down : Bool) : (last : α) → List α → Option (List α × List α)
  | _, [] => some ([], [])
  | last, x :: xs => do
    if (← less x last) = down then
      let (run, rest) ← takeRun less down x xs
      return (x :: run, rest)
    else return ([], x :: xs)

/-- The run that a list starts with, turned round if it goes down, and the rest. -/
def leadingRun (less : Less α) : List α → Option (List α × List α)
  | [] => some ([], [])
  | [x] => some ([x], [])
  | x :: y :: rest => do
    let down ← less y x
    let (run, rest) ← takeRun less down y rest
    let run := x :: y :: run
    return (if down then run.reverse else run, rest)

/-- Puts an item into a sorted list, behind those equal to it. -/
def insertSorted (less : Less α) (xs : List α) (x : α) : Option (List α) := do
  let k ← narrow (fun y => (less x y).map not) false xs (xs.length + 1) 0 xs.length
  return xs.take k ++ x :: xs.drop k

/-- The least length of a run in a list of length `n`: the six leading bits of `n`, and one more
if any of the bits behind them is set. -/
def minRun (n : Nat) (odd : Bool := false) : Nat :=
  if n < 64 then n + odd.toNat else minRun (n / 2) (odd || n % 2 = 1)

/-- The next run, filled up to a least length, and the rest. -/
def nextRun (less : Less α) (least : Nat) (xs : List α) : Option (List α × List α) := do
  let (run, rest) ← leadingRun less xs
  let missing := least - run.length
  let run ← (rest.take missing).foldlM (insertSorted less) run
  return (run, rest.drop missing)

/-! ## Borders between runs -/

/-- Compares two fractions `a / n` and `b / n` of one half by binary digits: the number of the
first digit in which they differ. -/
def firstDifference (n : Nat) : (fuel a b : Nat) → Nat
  | 0, _, _ => 1
  | fuel + 1, a, b =>
    if n ≤ a then 1 + firstDifference n fuel (2 * (a - n)) (2 * (b - n))
    else if n ≤ b then 1
    else 1 + firstDifference n fuel (2 * a) (2 * b)

/-- A run of a list, and the power of the border behind it. -/
structure Run (α : Type) where
  start : Nat
  items : List α
  power : Nat := 0

/-- The power of the border between a run and one of a length behind it, in a list of length
`n`. -/
def Run.borderPower (r : Run α) (n next : Nat) : Nat :=
  let a := 2 * r.start + r.items.length
  firstDifference n (n + 1) a (a + r.items.length + next)

/-! ## Merging all runs -/

/-- The runs that are waiting to be merged, the last one first, and what merges have learned. -/
structure Pending (α : Type) where
  runs : List (Run α) := []
  least : Nat := minStretch

/-- Merges the last run with those before it as long as the border between them has a greater
power than the border behind it. -/
def collapse (less : Less α) (power : Nat) :
    (least : Nat) → (last : Run α) → List (Run α) → Option (Pending α)
  | least, last, [] => some ⟨[{ last with power }], least⟩
  | least, last, before :: runs =>
    if power < before.power then do
      let (items, least) ← mergeRuns less least before.items last.items
      collapse less power least { before with items } runs
    else some ⟨{ last with power } :: before :: runs, least⟩

/-- Puts a run behind those that are waiting. -/
def Pending.push (less : Less α) (n : Nat) (p : Pending α) (r : Run α) : Option (Pending α) :=
  match p.runs with
  | [] => some { p with runs := [r] }
  | last :: runs => do
    let after ← collapse less (last.borderPower n r.items.length) p.least last runs
    return { after with runs := r :: after.runs }

/-- Finds the runs of a list and puts them behind those that are waiting. -/
def pushRuns (less : Less α) (n : Nat) :
    (fuel start : Nat) → Pending α → List α → Option (Pending α)
  | 0, _, p, _ | _, _, p, [] => some p
  | fuel + 1, start, p, xs => do
    let (run, rest) ← nextRun less (minRun n) xs
    pushRuns less n fuel (start + run.length) (← p.push less n { start, items := run }) rest

/-- Merges all runs that are waiting. Of three runs the two shorter neighbours come first. -/
def finish (less : Less α) : (fuel least : Nat) → List (Run α) → Option (List α)
  | _, _, [] => some []
  | _, _, [r] => some r.items
  | 0, _, r :: _ => some r.items
  | fuel + 1, least, last :: middle :: before :: runs => do
    if before.items.length < last.items.length then
      let (items, least) ← mergeRuns less least before.items middle.items
      finish less fuel least (last :: { before with items } :: runs)
    else
      let (items, least) ← mergeRuns less least middle.items last.items
      finish less fuel least ({ middle with items } :: before :: runs)
  | fuel + 1, least, [last, before] => do
    let (items, least) ← mergeRuns less least before.items last.items
    finish less fuel least [{ before with items }]

/-- Sorts a list, if all comparisons that are made have an answer. -/
def runSort (less : Less α) (xs : List α) : Option (List α) := do
  let pending ← pushRuns less xs.length xs.length 0 {} xs
  finish less pending.runs.length pending.least pending.runs

end SymbolGraph.Order
