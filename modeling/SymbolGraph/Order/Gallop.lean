set_option autoImplicit false

/-!
# Galloping

How many items at the front of a list pass a test, when every item that passes stands before
every one that does not. The test is made with the first item and then in strides that double,
until an item fails; the place is then found by bisection. A test may have no answer, and then
there is none.

A list may be given from its end backwards. Bisection then takes the other one of two middle
items, so that the same items are tested whichever way a list is given.
-/

namespace SymbolGraph.Order

variable {α : Type}

/-- Bisects between `low`, before which all pass, and `high`, from which on all fail. -/
def narrow (test : α → Option Bool) (backward : Bool) (xs : List α) :
    (fuel low high : Nat) → Option Nat
  | 0, low, _ => some low
  | fuel + 1, low, high =>
    let half := (high - low) / 2
    let middle := if backward then high - 1 - half else low + half
    if high ≤ low then some low
    else
      match xs[middle]? with
      | none => some low
      | some x =>
        match test x with
        | none => none
        | some true => narrow test backward xs fuel (middle + 1) high
        | some false => narrow test backward xs fuel low middle

/-- Tests the items at `next` and in doubled strides beyond, as long as they pass: the last
place that passed, and the first that is not known to. -/
def stride (test : α → Option Bool) (xs : List α) :
    (fuel passed next : Nat) → Option (Nat × Nat)
  | 0, passed, _ => some (passed, xs.length)
  | fuel + 1, passed, next =>
    match xs[next]? with
    | none => some (passed, xs.length)
    | some x =>
      match test x with
      | none => none
      | some true => stride test xs fuel next (2 * next + 1)
      | some false => some (passed, next)

/-- How many items at the front of a list pass. -/
def gallop (test : α → Option Bool) (backward : Bool) (xs : List α) : Option Nat :=
  match xs with
  | [] => some 0
  | x :: _ =>
    match test x with
    | none => none
    | some false => some 0
    | some true =>
      match stride test xs xs.length 0 1 with
      | none => none
      | some (passed, next) => narrow test backward xs xs.length (passed + 1) next

end SymbolGraph.Order
