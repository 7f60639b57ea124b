import SymbolGraph.Json.Basic
import SymbolGraph.Text.Integer
set_option autoImplicit false

/-!
# Reading JSON

Reads a value from a string, with blanks allowed around it. Beyond the format's own grammar the
words `NaN`, `Infinity` and `-Infinity` are read as doubles. Of members with the same key the
last one counts, in the place of the first. Controls below the space are refused inside strings,
and so is anything behind the value. Two halves of a surrogate pair are one character if both
are written by their codes, one behind the other.

A reader may have limits: on how deep lists and objects lie in each other, and on the digits of
an integer. The first thing that is wrong is reported, be it the form or a limit.
-/

namespace SymbolGraph

namespace Json

/-- The blanks between the parts of a value. -/
def isGap (c : Char) : Bool := c == ' ' || c == '\t' || c == '\n' || c == '\r'

/-- Skips blanks. -/
def skipGap (s : Points) : Points := s.dropWhile (Point.holds isGap)

/-! ## Strings -/

/-- The value of a hexadecimal digit. -/
def hexDigit? (c : Char) : Option Nat :=
  if c.isDigit then some (c.toNat - '0'.toNat)
  else if 'a' ≤ c && c ≤ 'f' then some (c.toNat - 'a'.toNat + 10)
  else if 'A' ≤ c && c ≤ 'F' then some (c.toNat - 'A'.toNat + 10)
  else none

/-- The value of four hexadecimal digits. -/
def hexCode? (a b c d : Char) : Option Nat := do
  let high := (← hexDigit? a) * 16 + (← hexDigit? b)
  return (high * 16 + (← hexDigit? c)) * 16 + (← hexDigit? d)

/-- The code unit opens a pair. -/
def isHighUnit (n : Nat) : Bool := 0xD800 ≤ n && n ≤ 0xDBFF

/-- The code unit closes a pair. -/
def isLowUnit (n : Nat) : Bool := 0xDC00 ≤ n && n ≤ 0xDFFF

/-- A piece of a written string: a point that stands for itself, or a code unit written as its
code. -/
inductive Piece
  | point (p : Point)
  | unit (n : Nat)

/-- The string that pieces denote: two units that are a pair are one character. -/
def ofPieces : List Piece → Points
  | [] => []
  | .unit n :: .unit m :: pieces =>
    if isHighUnit n && isLowUnit m then
      .char (Char.ofNat (0x10000 + (n - 0xD800) * 0x400 + (m - 0xDC00))) :: ofPieces pieces
    else .ofCode n :: ofPieces (.unit m :: pieces)
  | .unit n :: pieces => .ofCode n :: ofPieces pieces
  | .point p :: pieces => p :: ofPieces pieces

/-- The character that an escape of one letter denotes. -/
def escaped? : Char → Option Char
  | '"' => some '"'
  | '\\' => some '\\'
  | '/' => some '/'
  | 'b' => some '\x08'
  | 'f' => some '\x0c'
  | 'n' => some '\n'
  | 'r' => some '\r'
  | 't' => some '\t'
  | _ => none

/-- Reads the pieces of a string up to its closing quote. -/
def readPieces : Points → Option (List Piece × Points)
  | [] => none
  | .half n :: s => (readPieces s).map fun (pieces, rest) => (.point (.half n) :: pieces, rest)
  | .char c :: s =>
    if c = '"' then some ([], s)
    else if c = '\\' then
      match s with
      | .char 'u' :: .char a :: .char b :: .char c :: .char d :: s =>
        match hexCode? a b c d with
        | some n => (readPieces s).map fun (pieces, rest) => (.unit n :: pieces, rest)
        | none => none
      | .char e :: s =>
        match escaped? e with
        | some x => (readPieces s).map fun (pieces, rest) => (.point (.char x) :: pieces, rest)
        | none => none
      | _ => none
    else if c.toNat < 0x20 then none
    else (readPieces s).map fun (pieces, rest) => (.point (.char c) :: pieces, rest)

/-! ## Numbers -/

/-- Reads digits. -/
def readDigits (s : Points) : Text × Points :=
  ((s.takeWhile (Point.holds Char.isDigit)).filterMap Point.char?,
    s.dropWhile (Point.holds Char.isDigit))

/-- The number that ASCII digits denote. -/
def digitsValue (ds : Text) : Nat := ds.foldl (fun n c => 10 * n + (c.toNat - '0'.toNat)) 0

/-- Reads a fraction: a point with digits behind it. Without one nothing is read. -/
def readFraction : Points → Text × Points
  | .char '.' :: s => match readDigits s with
    | ([], _) => ([], .char '.' :: s)
    | (ds, rest) => (ds, rest)
  | s => ([], s)

/-- Reads an exponent: the letter, a sign as it occurs, and digits. Without one nothing is
read. -/
def readExponent (s : Points) : Option Int × Points :=
  let after (s : Points) : Option Int × Points :=
    let (sign, rest) : Int × Points :=
      match s with
      | .char '-' :: rest => (-1, rest)
      | .char '+' :: rest => (1, rest)
      | rest => (1, rest)
    match readDigits rest with
    | ([], _) => (none, s)
    | (ds, rest) => (some (sign * digitsValue ds), rest)
  match s with
  | .char 'e' :: t | .char 'E' :: t =>
    match after t with
    | (none, _) => (none, s)
    | read => read
  | s => (none, s)

/-- Reads the whole part of a number: a zero, or digits that do not start with zero. -/
def readWhole : Points → Option (Text × Points)
  | .char '0' :: s => some (['0'], s)
  | s => match readDigits s with
    | ([], _) => none
    | r => some r

/-- The number that whole digits, a fraction and an exponent denote. -/
def decimal (negative : Bool) (whole fraction : Text) (exponent : Int) : Binary64 :=
  let digits := (whole ++ fraction).dropWhile (· = '0')
  .ofDecimal negative (digitsValue digits) digits.length (exponent - fraction.length)

/-- A number is an integer if it has neither a fraction nor an exponent. -/
def readMagnitude (limits : JsonLimits) (negative : Bool) (s : Points) :
    Except JsonFault (Json × Points) :=
  match readWhole s with
  | none => .error .malformed
  | some (whole, s) =>
    let (fraction, s) := readFraction s
    let (exponent, s) := readExponent s
    if fraction = [] ∧ exponent = none then
      let n : Int := digitsValue whole
      if limits.digits.any (· < whole.length) then .error (.longNumeral whole.length)
      else .ok (.int (if negative then -n else n), s)
    else .ok (.float (decimal negative whole fraction (exponent.getD 0)), s)

/-- The words for a value. -/
def words : List (String × Json) :=
  [("null", null), ("true", bool true), ("false", bool false), ("NaN", float .nan),
    ("Infinity", float (.infinite false)), ("-Infinity", float (.infinite true))]

/-- Reads one of the words for a value. -/
def readWord? (s : Points) : Option (Json × Points) :=
  words.findSome? fun (word, v) =>
    (Points.dropHead? word.toList s).map fun rest => (v, rest)

/-- Reads a number or one of the words for a value. -/
def readScalar (limits : JsonLimits) (s : Points) : Except JsonFault (Json × Points) :=
  match readWord? s, s with
  | some r, _ => .ok r
  | none, .char '-' :: s => readMagnitude limits true s
  | none, s => readMagnitude limits false s

/-! ## Values -/

/-- Reads the rest of a string up to its closing quote. -/
def readString (s : Points) : Except JsonFault (Points × Points) :=
  match readPieces s with
  | some (pieces, rest) => .ok (ofPieces pieces, rest)
  | none => .error .malformed

mutual
/-- Reads a value. -/
def readValue (limits : JsonLimits) : Nat → Points → Except JsonFault (Json × Points)
  | 0, _ => .error .malformed
  | fuel + 1, s =>
    match s with
    | .char '"' :: s => (readString s).map fun (t, rest) => (.str t, rest)
    | .char '[' :: s =>
      match limits.inside?, skipGap s with
      | none, _ => .error .tooDeep
      | some _, .char ']' :: rest => .ok (.arr [], rest)
      | some inside, s => (readItems inside fuel s).map fun (vs, rest) => (.arr vs, rest)
    | .char '\x7b' :: s =>
      match limits.inside?, skipGap s with
      | none, _ => .error .tooDeep
      | some _, .char '\x7d' :: rest => .ok (.obj [], rest)
      | some inside, s =>
        (readFields inside fuel s).map fun (fs, rest) => (.obj (Assoc.putAll [] fs), rest)
    | s => readScalar limits s

/-- Reads the items of a list up to its end. -/
def readItems (limits : JsonLimits) : Nat → Points → Except JsonFault (List Json × Points)
  | 0, _ => .error .malformed
  | fuel + 1, s =>
    match readValue limits fuel s with
    | .error fault => .error fault
    | .ok (v, s) =>
      match skipGap s with
      | .char ']' :: rest => .ok ([v], rest)
      | .char ',' :: s =>
          (readItems limits fuel (skipGap s)).map fun (vs, rest) => (v :: vs, rest)
      | _ => .error .malformed

/-- Reads the members of an object up to its end. -/
def readFields (limits : JsonLimits) : Nat → Points → Except JsonFault (Fields × Points)
  | 0, _ => .error .malformed
  | fuel + 1, s =>
    match s with
    | .char '"' :: s =>
      match readString s with
      | .error fault => .error fault
      | .ok (k, s) =>
        match skipGap s with
        | .char ':' :: s =>
          match readValue limits fuel (skipGap s) with
          | .error fault => .error fault
          | .ok (v, s) =>
            match skipGap s with
            | .char '\x7d' :: rest => .ok ([(k, v)], rest)
            | .char ',' :: s =>
              (readFields limits fuel (skipGap s)).map fun (fs, rest) => ((k, v) :: fs, rest)
            | _ => .error .malformed
        | _ => .error .malformed
    | _ => .error .malformed
end

/-- Reads a value that is the whole string, within limits. A list and its first item each take a
step, so two steps for each point are enough. -/
def readWithin (limits : JsonLimits) (s : Points) : Except JsonFault Json :=
  match readValue limits (2 * s.length + 2) (skipGap s) with
  | .error fault => .error fault
  | .ok (v, rest) => if skipGap rest = [] then .ok v else .error .malformed

/-- Reads a value that is the whole string. -/
def read (s : Points) : Option Json :=
  match readWithin {} s with
  | .ok v => some v
  | .error _ => none

end Json

end SymbolGraph
