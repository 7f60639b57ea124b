import SymbolGraph.Number.Binary64
import SymbolGraph.Text.Basic
set_option autoImplicit false

/-!
# The shortest decimal text of a double

A double is written with the fewest decimal digits that read back as it; of several such
decimals the nearest is taken. With the decimal point after the digits' first, exponents from -4
to 15 are written positionally, always with a point and at least one digit behind it; other
exponents are written with `e`, a sign, and at least two digits.
-/

namespace SymbolGraph

namespace Binary64

/-- Twice the value and the ends of the interval that reads back as `m · 2 ^ e`, over one
denominator: value, lower end, upper end, denominator. -/
def interval (m : Nat) (e : Int) : Nat × Nat × Nat × Nat :=
  -- below a power of two the gap to the next smaller double is half as wide
  let narrow := m == Nat.pow 2 (precision - 1) && decide (e > minExponent)
  let scale := Nat.pow 2 e.toNat
  (4 * m * scale, (4 * m - (if narrow then 1 else 2)) * scale, (4 * m + 2) * scale,
    4 * Nat.pow 2 (-e).toNat)

/-- The decimal exponent of the first digit of `num / den`, both positive: an estimate from the
lengths, lowered if it is too high. -/
def leadingExponent (num den : Nat) : Int :=
  let estimate : Int := ((Nat.toDigits 10 num).length : Int) - (Nat.toDigits 10 den).length
  if num * Nat.pow 10 (-estimate).toNat < den * Nat.pow 10 estimate.toNat then estimate - 1
  else estimate

/-- The decimal with `n` digits that reads back as `m · 2 ^ e`, if there is one: its digits as a
number, and the exponent of its last digit. -/
def withDigits? (m : Nat) (e : Int) (n : Nat) : Option (Nat × Int) :=
  let (value, low, high, den) := interval m e
  let last := leadingExponent value den - n + 1
  -- everything as multiples of `10 ^ last / den`
  let up := Nat.pow 10 (-last).toNat
  let unit := den * Nat.pow 10 last.toNat
  let below := value * up / unit
  let reads (d : Nat) : Bool :=
    let x := d * unit
    if m % 2 == 0 then decide (low * up ≤ x) && decide (x ≤ high * up)
    else decide (low * up < x) && decide (x < high * up)
  let distance (d : Nat) : Nat := max (d * unit) (value * up) - min (d * unit) (value * up)
  match reads below, reads (below + 1) with
  | true, true =>
    if distance (below + 1) < distance below
        || (distance (below + 1) == distance below && below % 2 == 1) then
      some (below + 1, last)
    else some (below, last)
  | true, false => some (below, last)
  | false, true => some (below + 1, last)
  | false, false => none

/-- Removes zeros from the end of a decimal's digits. -/
def stripZeros : Nat → Nat × Int → Nat × Int
  | 0, d => d
  | fuel + 1, (digits, last) =>
    if digits % 10 == 0 && digits != 0 then stripZeros fuel (digits / 10, last + 1)
    else (digits, last)

/-- The shortest decimal that reads back as `m · 2 ^ e`. Seventeen digits always do. -/
def shortest (m : Nat) (e : Int) : Nat × Int :=
  stripZeros 20 (((List.range 17).findSome? fun n => withDigits? m e (n + 1)).getD (0, 0))

/-- Writes digits with the exponent of the first of them. -/
def layout (digits : Text) (exponent : Int) : Text :=
  if -4 ≤ exponent && exponent < 16 then
    if exponent < 0 then
      "0.".toList ++ List.replicate (exponent.natAbs - 1) '0' ++ digits
    else
      let whole := exponent.toNat + 1
      let padded := digits ++ List.replicate (whole - digits.length) '0'
      let fraction := padded.drop whole
      padded.take whole ++ ['.'] ++ (if fraction.isEmpty then ['0'] else fraction)
  else
    let mantissa :=
      match digits with
      | [] => []
      | [d] => [d]
      | d :: ds => d :: '.' :: ds
    let power := Text.ofNat exponent.natAbs
    let padded := if power.length < 2 then '0' :: power else power
    mantissa ++ ['e', if exponent < 0 then '-' else '+'] ++ padded

/-- The text of a finite double, without its sign. -/
def magnitude (m : Nat) (e : Int) : Text :=
  if m == 0 then "0.0".toList
  else
    let (digits, last) := shortest m e
    let ds := Text.ofNat digits
    layout ds (last + ds.length - 1)

/-- The text of a double, with the given words for infinity and for no number. -/
def render (infinity notANumber : Text) : Binary64 → Text
  | finite negative m e => (if negative then ['-'] else []) ++ magnitude m e
  | infinite negative => (if negative then ['-'] else []) ++ infinity
  | nan => notANumber

end Binary64

end SymbolGraph
