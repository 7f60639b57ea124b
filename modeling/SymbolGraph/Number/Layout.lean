import SymbolGraph.Text.Layout
set_option autoImplicit false

/-!
# Layouts of whole numbers

A number is laid out in digits of a base, as a character, or in a form with a fraction or an
exponent. Digits may stand in groups, and zeros that fill a field up then do so too.
-/

namespace SymbolGraph.Layout

/-! ## Groups of digits -/

/-- Puts a mark between groups of digits, with zeros in front up to a least width; all from the
back. -/
def groupBack (mark : Text) (size : Nat) : (fuel : Nat) → (least : Int) → Text → Text
  | 0, _, back => back
  | fuel + 1, least, back =>
    let length := min size (max (max back.length least.toNat) 1)
    let group := back.take length ++ List.replicate (length - back.length) '0'
    let least := least - length
    let back := back.drop length
    if back = [] ∧ least ≤ 0 then group
    else group ++ mark ++ groupBack mark size fuel (least - mark.length) back

/-- Puts a mark between groups of digits, with zeros in front up to a least width. -/
def grouped (mark : Option Char) (size : Nat) (least : Int) (digits : Text) : Text :=
  let size := if mark.isNone then digits.length + least.toNat + 1 else size
  (groupBack mark.toList size (digits.length + least.toNat + 1) least digits.reverse).reverse

/-! ## Forms -/

/-- A number in a form: what stands before its digits, the digits of its whole part, and what
stands behind them. -/
structure NumberForm where
  start : Text := []
  whole : Text := []
  rest : Text := []
  deriving DecidableEq, Repr

/-- Digits in a base, with its mark before them in the longer form. -/
def inBase (alternate : Bool) (mark : Char) (base n : Nat) : NumberForm :=
  { start := if alternate then ['0', mark] else [], whole := Nat.toDigits base n }

/-- A number rounded to a number of digits, the even neighbour for a half: the digits, and the
power of ten of the first. -/
def rounded (digits n : Nat) : Text × Nat :=
  let written := Text.ofNat n
  if written.length ≤ digits then
    (written ++ List.replicate (digits - written.length) '0', written.length - 1)
  else
    let unit := Nat.pow 10 (written.length - digits)
    let low := n / unit
    let up := unit < 2 * (n % unit) || unit = 2 * (n % unit) && low % 2 = 1
    let r := Text.ofNat (if up then low + 1 else low)
    (r.take digits, written.length - 1 + (r.length - digits))

/-- A fraction with a point before it; without digits the point stands in the longer form
only. -/
def pointed (alternate : Bool) (fraction : Text) : Text :=
  if fraction = [] && ! alternate then [] else '.' :: fraction

/-- An exponent. -/
def exponent (letter : Char) (power : Nat) : Text :=
  [letter, '+'] ++ (if power < 10 then ['0'] else []) ++ Text.ofNat power

/-- Digits without the zeros at their end. -/
def withoutZeros (digits : Text) : Text := (digits.reverse.dropWhile (· = '0')).reverse

/-- A number with a fraction. -/
def fixed (alternate : Bool) (precision n : Nat) : NumberForm :=
  { whole := Text.ofNat n, rest := pointed alternate (List.replicate precision '0') }

/-- A number with an exponent. -/
def scientific (alternate : Bool) (letter : Char) (precision n : Nat) : NumberForm :=
  let (digits, power) := rounded (precision + 1) n
  { whole := digits.take 1, rest := pointed alternate (digits.drop 1) ++ exponent letter power }

/-- A number with as many digits as asked for, with an exponent if it has more. -/
def general (alternate : Bool) (letter : Char) (precision n : Nat) : NumberForm :=
  let (digits, power) := rounded (max precision 1) n
  let fraction (ds : Text) : Text :=
    pointed alternate (if alternate then ds else withoutZeros ds)
  if power < max precision 1 then
    { whole := digits.take (power + 1), rest := fraction (digits.drop (power + 1)) }
  else { whole := digits.take 1, rest := fraction (digits.drop 1) ++ exponent letter power }

/-- The greatest number of digits that can be counted. -/
def maxPrecision : Nat := 2147483647

/-- The number of digits behind the point, or the usual one. -/
def places (l : Layout) : Except LayoutFault Nat :=
  let n := l.precision.getD 6
  if maxPrecision < n then .error .precisionTooBig else .ok (min n widest)

/-- The form of a number that is laid out as an integer. -/
def integerForm (l : Layout) (form : NumberForm) : Except LayoutFault NumberForm :=
  if l.precision.isSome then .error .precisionInInteger
  else if l.plainZero then .error .zeroInInteger
  else .ok form

/-- The form that the letter of a layout asks for. -/
def form (l : Layout) (n : Nat) : Except LayoutFault NumberForm :=
  match l.letter with
  | 'd' | 'n' => l.integerForm { whole := Text.ofNat n }
  | 'b' => l.integerForm (inBase l.alternate 'b' 2 n)
  | 'o' => l.integerForm (inBase l.alternate 'o' 8 n)
  | 'x' => l.integerForm (inBase l.alternate 'x' 16 n)
  | 'X' =>
    let f := inBase l.alternate 'X' 16 n
    l.integerForm { f with whole := f.whole.map Char.toUpper }
  | 'c' => do
    let f ← l.integerForm { rest := [Char.ofNat n] }
    if l.sign.isSome then throw .signInChar
    if l.alternate then throw .alternateInChar
    return f
  | 'f' | 'F' => do return fixed l.alternate (← l.places) n
  | '%' => do
    let f := fixed l.alternate (← l.places) (100 * n)
    return { f with rest := f.rest ++ ['%'] }
  | 'e' | 'E' => do return scientific l.alternate l.letter (← l.places) n
  | 'g' => do return general l.alternate 'e' (← l.places) n
  | 'G' => do return general l.alternate 'E' (← l.places) n
  | letter => .error (.unknownForm letter .integer)

/-- The length of a group of digits. -/
def groupSize (l : Layout) : Nat := if l.letter ∈ "boxX".toList then 4 else 3

/-- Lays a number out. -/
def number (l : Layout) (n : Nat) : Except LayoutFault Text := do
  let f ← l.form n
  let sign := match l.sign with
    | some '-' | none => []
    | some c => [c]
  let start := sign ++ f.start
  let least : Int :=
    if l.fill = '0' && l.alignment =
      .inner then min l.width widest - (start.length + f.rest.length)
    else 0
  let whole := if f.whole = [] then [] else grouped l.separator l.groupSize least f.whole
  l.fillUp start (whole ++ f.rest)

end SymbolGraph.Layout

namespace SymbolGraph

/-- Lays a number out as a layout says; without a layout it is a numeral. -/
def Text.numberLaidOut (n : Nat) (layout : Text) : Except LayoutFault Text := do
  if layout = [] then return Text.ofNat n
  (← Layout.read .integer layout).number n

end SymbolGraph
