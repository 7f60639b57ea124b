import SymbolGraph.Text.Integer
set_option autoImplicit false

/-!
# Integers written as texts

A setting that is an integer may be written as a text. A plain numeral is an optional minus and
digits without a leading zero; it is read as it stands. Any other text is cleaned first: of the
blanks around it, a sign, leading zeros, a fraction of zeros and underscores between digits. A
numeral may have no more than `Text.maxDigits` digits.
-/

namespace SymbolGraph.Numeral

/-- Why a text writes no integer. -/
inductive Fault
  /-- The text is no numeral. -/
  | malformed
  /-- The text starts with a plain numeral that is too long. -/
  | tooLong
  deriving DecidableEq, Repr

/-- A digit that may begin a numeral of several digits. -/
def isLeading (c : Char) : Bool := '1' ≤ c && c ≤ '9'

/-- A minus taken off the front, if there is one, and the rest. -/
def takeMinus : Text → Bool × Text
  | '-' :: t => (true, t)
  | t => (false, t)

/-- The value of a plain numeral. -/
def plain? (t : Text) : Option Int :=
  let (negative, digits) := takeMinus t
  let value : Int := Text.ofDigits (digits.map fun c => c.toNat - '0'.toNat)
  if ! digits.all Char.isDigit then none
  else if digits = ['0'] || digits.head?.any isLeading then
    some (if negative then - value else value)
  else none

/-- A text starts with a plain numeral that is too long. -/
def startsTooLong (t : Text) : Bool :=
  let (_, digits) := takeMinus t
  digits.head?.any isLeading && Text.maxDigits < (digits.takeWhile Char.isDigit).length

/-! ## Cleaning -/

/-- Drops what follows a leading zero: zeros and underscores, up to another digit or a minus.
Before a point and at the end one character stays. -/
def dropZeros (last : Char) : Text → Option Text
  | [] => some [last]
  | c :: cs =>
    if c = '0' || c = '_' then dropZeros c cs
    else if isLeading c || c = '-' then some (c :: cs)
    else if c = '.' then some (last :: c :: cs)
    else none

/-- Drops leading zeros; what starts with neither a digit nor a minus is no numeral. -/
def stripZeros : Text → Option Text
  | [] => none
  | c :: cs =>
    if c = '0' then dropZeros c cs
    else if isLeading c || c = '-' then some (c :: cs)
    else none

/-- Drops a point with zeros only after it, at least one. -/
def stripFraction (t : Text) : Text :=
  match t.dropWhile (· ≠ '.') with
  | _ :: zeros => if zeros ≠ [] && zeros.all (· = '0') then t.takeWhile (· ≠ '.') else t
  | [] => t

/-- Two underscores stand together. -/
def hasDoubleUnderscore : Text → Bool
  | '_' :: '_' :: _ => true
  | _ :: cs => hasDoubleUnderscore cs
  | [] => false

/-- Drops underscores, which may stand neither at an end nor together. -/
def stripUnderscores (t : Text) : Text :=
  if t.head? = some '_' || t.getLast? = some '_' || hasDoubleUnderscore t then t
  else t.filter (· ≠ '_')

/-- Drops a plus sign, which no minus may follow. -/
def stripPlus : Text → Option Text
  | '+' :: '-' :: _ => none
  | '+' :: cs => some cs
  | cs => some cs

/-- The numeral that a text comes to. A minus stays in front while the rest is cleaned. -/
def clean (t : Text) : Option Text := do
  let (negative, digits) := takeMinus (← stripPlus (Text.trimBy Text.isNumeralSpace t))
  let cleaned := stripUnderscores (stripFraction (← stripZeros digits))
  return if negative then '-' :: cleaned else cleaned

/-- The integer that a text writes. -/
def read (t : Text) : Except Fault Int :=
  if startsTooLong t then .error .tooLong
  else
    let cleaned := (clean t).bind fun u => if startsTooLong u then none else plain? u
    match (plain? t).or cleaned with
    | none => .error .malformed
    | some n => .ok n

end SymbolGraph.Numeral
