import SymbolGraph.Json.Basic
set_option autoImplicit false

/-!
# Limits

A limit is an integer that a count must not exceed. One that was given without being checked may
be any JSON value: another number still compares with counts, and anything else does not, which
is a fault once the two are compared.
-/

namespace SymbolGraph

/-- Why a setting cannot be used: it has the wrong type. -/
inductive TypeFault
  /-- A count cannot be tested for being greater than a value. -/
  | greater (value : Json)
  /-- A count cannot be tested for being at most a value. -/
  | atMost (value : Json)
  /-- A text cannot be cut at a number that is no integer. -/
  | notAPlace
  /-- A value cannot be split, as a text can. -/
  | notSplit (value : Json)
  /-- A value is no path. -/
  | notAPath (value : Json)
  deriving DecidableEq, Repr

/-- The text of a fault. -/
def TypeFault.message : TypeFault → Text
  | greater v => notCompared ">" v
  | atMost v => notCompared "<=" v
  | notAPlace => "slice indices must be integers or None or have an __index__ method".toList
  | notSplit v => ['\''] ++ v.typeName.toList ++ "' object has no attribute 'split'".toList
  | notAPath v => "expected str, bytes or os.PathLike object, not ".toList ++ v.typeName.toList
where
  /-- The text for a comparison of an integer with a value. -/
  notCompared (sign : String) (v : Json) : Text :=
    ['\''] ++ sign.toList ++ "' not supported between instances of 'int' and '".toList
      ++ v.typeName.toList ++ ['\'']

/-- A limit. -/
inductive Limit
  | number (n : Int)
  /-- A value that is no integer. -/
  | other (v : Json)
  deriving DecidableEq, Repr

namespace Limit

/-- The limit that a value is. -/
def ofJson : Json → Limit
  | .int n => number n
  | v => other v

/-- The limit as messages show it. -/
def shown : Limit → Text
  | number n => Text.ofInt n
  | other v => v.plain.shown

/-- The integer that a limit is; truth values are 0 and 1. -/
def integer? : Limit → Option Int
  | number n => some n
  | other (.bool b) => some (if b then 1 else 0)
  | other _ => none

/-- A count exceeds a limit. -/
def exceeded (l : Limit) (count : Nat) : Except TypeFault Bool :=
  match l with
  | number n => .ok (decide (n < count))
  | other v =>
    match v.less? (.int count) with
    | some b => .ok b
    | none => .error (.greater v)

/-- Why a text of a length cannot be cut to a limit that is no integer, if it cannot. A text
that is short enough need not be cut. -/
def cutFault? (v : Json) (length : Nat) : Option TypeFault :=
  match v.less? (.int length) with
  | none => some (.atMost v)
  | some less => if less || v.isNaN then some .notAPlace else none

/-- An integer is exceeded by the counts that are greater. -/
@[simp] theorem exceeded_number (n : Int) (count : Nat) :
    (number n).exceeded count = .ok (decide (n < count)) := rfl

end Limit

end SymbolGraph
