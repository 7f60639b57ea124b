import SymbolGraph.Order.Gallop
set_option autoImplicit false

/-!
# Merging two runs

Two runs of items are merged into one. Items are taken one by one from the run that wins; when
one run has won often in a row, whole stretches are taken by galloping, until that no longer
pays. How often a run has to win is learned from one merge to the next.

The run that wins a tie is the first. The merge ends when the second run is used up, or when one
item of the first is left, which is known to come last. Nothing is lost if the comparisons
contradict each other, and there is no merged run if one has no answer.
-/

namespace SymbolGraph.Order

variable {α : Type}

/-- Whether one item is less than another, if the two compare. -/
abbrev Less (α : Type) : Type := α → α → Option Bool

/-- How many items must be taken in a stretch for galloping to pay. -/
def minStretch : Nat := 7

/-- How two runs are merged. -/
structure Merging (α : Type) where
  /-- An item of the second run goes before one of the first. -/
  wins : Less α
  /-- The runs are given from their ends backwards. -/
  backward : Bool

/-- What is left of two runs, and what has been taken from them. -/
structure Stage (α : Type) where
  taken : List α
  first : List α
  second : List α

/-- The merge of the rest, once there is nothing to compare. -/
def settled? : (first second : List α) → Option (List α)
  | first, [] => some first
  | [], second => some second
  | [x], second => some (second ++ [x])
  | _, _ => none

namespace Merging

/-- Takes a stretch of the first run, then an item of the second: the stage then, and the length
of the stretch. -/
def takeFirst (m : Merging α) (first second : List α) : Option (Stage α × Nat) :=
  match second with
  | [] => some (⟨first, [], []⟩, 0)
  | y :: rest =>
    match gallop (fun x => (m.wins y x).map not) m.backward first with
    | none => none
    | some k =>
      match settled? (first.drop k) second with
      | some end_ => some (⟨first.take k ++ end_, [], []⟩, k)
      | none => some (⟨first.take k ++ [y], first.drop k, rest⟩, k)

/-- Takes a stretch of the second run, then an item of the first: the stage then, and the length
of the stretch. -/
def takeSecond (m : Merging α) (first second : List α) : Option (Stage α × Nat) :=
  match first with
  | [] => some (⟨second, [], []⟩, 0)
  | x :: rest =>
    match gallop (fun y => m.wins y x) m.backward second with
    | none => none
    | some k =>
      match settled? first (second.drop k) with
      | some end_ => some (⟨second.take k ++ end_, [], []⟩, k)
      | none => some (⟨second.take k ++ [x], rest, second.drop k⟩, k)

/-- Takes a stretch of either run: the stage then, and the length of the longer stretch. The run
that comes first in the list gives the first stretch. -/
def takeBoth (m : Merging α) (first second : List α) : Option (Stage α × Nat) := do
  let (a, k) ← (if m.backward then m.takeSecond else m.takeFirst) first second
  match settled? a.first a.second with
  | some end_ => return (⟨a.taken ++ end_, [], []⟩, k)
  | none =>
    let (b, l) ← (if m.backward then m.takeFirst else m.takeSecond) a.first a.second
    return (⟨a.taken ++ b.taken, b.first, b.second⟩, max k l)

/-- Merges two runs: the merged run, and how often a run has to win from then on. `won` tells
how often the first and the second run have won in a row; while galloping there is no such
count. -/
def merge (m : Merging α) : (fuel least : Nat) → (won : Option (Nat × Nat)) →
    (first second : List α) → Option (List α × Nat)
  | 0, least, _, first, second => some (first ++ second, least)
  | fuel + 1, least, won, first, second =>
    match settled? first second, won, first, second with
    | some end_, _, _, _ => some (end_, least)
    | none, some (wonFirst, wonSecond), x :: xs, y :: ys => do
      if ← m.wins y x then
        let won := if least ≤ wonSecond + 1 then none else some (0, wonSecond + 1)
        let (rest, least) ← m.merge fuel least won first ys
        return (y :: rest, least)
      else
        let won := if least ≤ wonFirst + 1 then none else some (wonFirst + 1, 0)
        let (rest, least) ← m.merge fuel least won xs second
        return (x :: rest, least)
    | none, _, first, second => do
      let (stage, stretch) ← m.takeBoth first second
      match settled? stage.first stage.second with
      | some end_ => return (stage.taken ++ end_, least)
      | none =>
        let (least, won) :=
          if minStretch ≤ stretch then (max 1 (least - 1), none) else (least + 1, some (0, 0))
        let (rest, least) ← m.merge fuel least won stage.first stage.second
        return (stage.taken ++ rest, least)

/-- Merges two runs, the second of which is known to give the first item. -/
def start (m : Merging α) (least : Nat) (first second : List α) : Option (List α × Nat) :=
  match second with
  | [] => some (first, least)
  | y :: ys => do
    let (rest, least) ← m.merge (first.length + ys.length) least (some (0, 0)) first ys
    return (y :: rest, least)

end Merging

/-- Merges two runs that stand beside each other, items of the left one before equal ones of the
right. What stands in place already at both ends is left there. The shorter one of the rests is
the one that wins ties: the left one from the front, or the right one from the back. -/
def mergeRuns (less : Less α) (least : Nat) (left right : List α) : Option (List α × Nat) :=
  match left.getLast?, right.head? with
  | some last, some head => do
    let k ← gallop (fun x => (less head x).map not) false left
    let rest := left.drop k
    if rest.isEmpty then return (left ++ right, least)
    let l ← gallop (fun y => (less y last).map not) true right.reverse
    let start := right.take (right.length - l)
    let (middle, least) ←
      if start.isEmpty then some (rest, least)
      else if rest.length ≤ start.length then
        Merging.start ⟨less, false⟩ least rest start
      else do
        let (merged, least) ←
          Merging.start ⟨fun y x => less x y, true⟩ least start.reverse rest.reverse
        some (merged.reverse, least)
    return (left.take k ++ middle ++ right.drop (right.length - l), least)
  | _, _ => some (left ++ right, least)

end SymbolGraph.Order
