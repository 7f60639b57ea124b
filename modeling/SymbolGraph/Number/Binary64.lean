set_option autoImplicit false

/-!
# Double-precision numbers

A finite double is `± m · 2 ^ e` with `m < 2 ^ 53`. Only what texts and comparisons need is
here: the nearest double to a decimal numeral, the integer part, and the exact order, also
against integers. All of it is arithmetic on integers.
-/

namespace SymbolGraph

/-- A double-precision number. -/
inductive Binary64
  /-- The number `mantissa · 2 ^ exponent`, or its negative. -/
  | finite (negative : Bool) (mantissa : Nat) (exponent : Int)
  | infinite (negative : Bool)
  | nan
  deriving DecidableEq, Repr

/-- The integer `mantissa · 2 ^ exponent`, an exact number that doubles and integers embed
in. -/
structure Dyadic where
  mantissa : Int
  exponent : Int
  deriving DecidableEq, Repr

namespace Dyadic

/-- The integer as a number with exponent 0. -/
def ofInt (n : Int) : Dyadic := ⟨n, 0⟩

/-- The mantissas of two numbers brought to their smaller exponent. -/
def align (a b : Dyadic) : Int × Int :=
  let e := min a.exponent b.exponent
  (a.mantissa * Int.pow 2 (a.exponent - e).toNat, b.mantissa * Int.pow 2 (b.exponent - e).toNat)

/-- Exact order. -/
def lt (a b : Dyadic) : Bool := let (x, y) := align a b; decide (x < y)

/-- Exact equality of the numbers. -/
def same (a b : Dyadic) : Bool := let (x, y) := align a b; decide (x = y)

end Dyadic

namespace Binary64

/-- The number of bits of a mantissa. -/
def precision : Nat := 53

/-- The least exponent. -/
def minExponent : Int := -1074

/-- The greatest exponent. -/
def maxExponent : Int := 971

/-- `num / den` rounded to the nearest integer, a half to the even one. -/
def roundDiv (num den : Nat) : Nat :=
  let q := num / den
  let r := num % den
  if 2 * r > den || (2 * r == den && q % 2 == 1) then q + 1 else q

/-- The double nearest to `num / den`, both positive; the even one of two that are equally
near. -/
def ofRatio (negative : Bool) (num den : Nat) : Binary64 :=
  let bits : Int := (Nat.log2 num : Int) - Nat.log2 den
  -- `2 ^ (bits - 1) < num / den < 2 ^ (bits + 1)`
  let small : Bool := decide (num * Nat.pow 2 (-bits).toNat < den * Nat.pow 2 bits.toNat)
  let e := max minExponent (if small then bits - precision else bits - precision + 1)
  let m := roundDiv (num * Nat.pow 2 (-e).toNat) (den * Nat.pow 2 e.toNat)
  let (m, e) := if m == Nat.pow 2 precision then (Nat.pow 2 (precision - 1), e + 1) else (m, e)
  if e > maxExponent then .infinite negative
  else if m == 0 then .finite negative 0 minExponent
  else .finite negative m e

/-- The double nearest to `digits · 10 ^ exponent`, where `digits` has `count` decimal
digits. -/
def ofDecimal (negative : Bool) (digits count : Nat) (exponent : Int) : Binary64 :=
  if digits == 0 then .finite negative 0 minExponent
  else if exponent + count > 310 then .infinite negative
  else if exponent + count < -330 then .finite negative 0 minExponent
  else ofRatio negative (digits * Nat.pow 10 exponent.toNat) (Nat.pow 10 (-exponent).toNat)

/-- The exact value of a finite double. -/
def dyadic? : Binary64 → Option Dyadic
  | finite negative m e => some ⟨if negative then -(m : Int) else m, e⟩
  | _ => none

/-- The number is not zero. -/
def isNonzero : Binary64 → Bool
  | finite _ m _ => m != 0
  | _ => true

/-- The integer part of a finite double, toward zero. -/
def truncate? : Binary64 → Option Int
  | finite negative m e =>
    let n := m * Nat.pow 2 e.toNat / Nat.pow 2 (-e).toNat
    some (if negative then -(n : Int) else n)
  | _ => none

end Binary64

end SymbolGraph
