import SymbolGraph.Text.Basic
set_option autoImplicit false

/-!
# Integer numerals

The decimal digits of every script come in runs of ten, from zero to nine. `digitZeros` lists
the zeros, and the value of a digit is its distance from the zero of its run.

An integer numeral is an optional sign and decimal digits of any script, with single underscores
allowed between digits, and blanks around the whole. The information separators `U+001C` to
`U+001F`, though blanks elsewhere, are none here. A numeral of more than `maxDigits` digits is
refused, whatever stands behind it.
-/

namespace SymbolGraph.Text

/-- The digits zero of all scripts. -/
def digitZeros : List Nat :=
  [0x30, 0x660, 0x6F0, 0x7C0, 0x966, 0x9E6, 0xA66, 0xAE6, 0xB66, 0xBE6, 0xC66, 0xCE6, 0xD66,
   0xDE6, 0xE50, 0xED0, 0xF20, 0x1040, 0x1090, 0x17E0, 0x1810, 0x1946, 0x19D0, 0x1A80, 0x1A90,
   0x1B50, 0x1BB0, 0x1C40, 0x1C50, 0xA620, 0xA8D0, 0xA900, 0xA9D0, 0xA9F0, 0xAA50,
   0xABF0, 0xFF10, 0x104A0, 0x10D30, 0x11066, 0x110F0, 0x11136, 0x111D0, 0x112F0, 0x11450,
   0x114D0, 0x11650, 0x116C0, 0x11730, 0x118E0, 0x11950, 0x11C50, 0x11D50, 0x11DA0, 0x16A60,
   0x16AC0, 0x16B50, 0x1D7CE, 0x1D7D8, 0x1D7E2, 0x1D7EC, 0x1D7F6, 0x1E140, 0x1E2F0,
   0x1E950, 0x1FBF0]

/-- The value of a decimal digit, of whatever script. -/
def digitValue? (c : Char) : Option Nat :=
  (digitZeros.find? fun z => z ≤ c.toNat && c.toNat < z + 10).map fun z => c.toNat - z

/-- Why a text is no integer numeral. -/
inductive IntegerFault
  /-- The text does not have the form of a numeral. -/
  | malformed
  /-- The numeral has more digits than are read. -/
  | tooLong (digits : Nat)
  deriving DecidableEq, Repr

/-- The greatest number of digits of a numeral. -/
def maxDigits : Nat := 4300

/-- Blanks that may surround a numeral. -/
def isNumeralSpace (c : Char) : Bool := isSpace c && ! (0x1C ≤ c.toNat && c.toNat ≤ 0x1F)

/-- The digits of a numeral after its first digit: more digits, each after at most one
underscore. -/
def digitsAfterDigit? : Text → Option (List Nat)
  | [] => some []
  | c :: cs =>
    if c = '_' then
      match cs with
      | [] => none
      | d :: ds => do
        let v ← digitValue? d
        let vs ← digitsAfterDigit? ds
        return v :: vs
    else do
      let v ← digitValue? c
      let vs ← digitsAfterDigit? cs
      return v :: vs

/-- The digits of an unsigned numeral. -/
def digits? : Text → Option (List Nat)
  | [] => none
  | c :: cs => do
    let v ← digitValue? c
    let vs ← digitsAfterDigit? cs
    return v :: vs

/-- The number that decimal digits denote, most significant first. -/
def ofDigits (ds : List Nat) : Nat := ds.foldl (fun n d => 10 * n + d) 0

/-- A character that may stand in an unsigned numeral. -/
def isNumeralChar (c : Char) : Bool := (digitValue? c).isSome || c = '_'

/-- Reads an integer numeral. -/
def integer (t : Text) : Except IntegerFault Int :=
  let (sign, body) : Int × Text :=
    match trimBy isNumeralSpace t with
    | '-' :: rest => (-1, rest)
    | '+' :: rest => (1, rest)
    | rest => (1, rest)
  match digits? (body.takeWhile isNumeralChar) with
  | none => .error .malformed
  | some ds =>
    if ds.length > maxDigits then .error (.tooLong ds.length)
    else if body.all isNumeralChar then .ok (sign * ofDigits ds)
    else .error .malformed

end SymbolGraph.Text
