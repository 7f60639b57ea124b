import SymbolGraph.Text.Case
import SymbolGraph.Time.Stamp
set_option autoImplicit false

/-!
# Percent directives

A format in which a percent sign starts a directive. Behind the sign may stand flags, a width
and a modifier, then a letter says which part of a time stamp is written. All else stands for
itself, a directive that there is none of included.

Before that the zone, its offset and the microseconds are filled in, where their letters stand
right behind a percent sign. So a sign that a directive has left over may join what was filled
in. A text that does not fit into the space set aside for it, which grows with the format, is
left out.
-/

namespace SymbolGraph

/-- What may stand between the percent sign of a directive and its letter. -/
structure DirectiveOptions where
  /-- How numbers are filled up: an underscore for blanks, a zero for zeros, a minus for not at
  all. -/
  pad : Option Char := none
  /-- Letters become capitals. -/
  capitals : Bool := false
  /-- Letters get the other case. -/
  otherCase : Bool := false
  width : Nat := 0
  modifier : Option Char := none

namespace DirectiveOptions

/-- Puts a text to the right of a field of the width. -/
def place (o : DirectiveOptions) (t : Text) : Text :=
  List.replicate (o.width - t.length) (if o.pad = some '0' then '0' else ' ') ++ t

/-- Turns every letter with one capital into it. -/
def raise (t : Text) : Text := t.flatMap (Text.mapCase Text.upperRuns [])

/-- Writes a text. -/
def text (o : DirectiveOptions) (t : Text) : Text := o.place (if o.capitals then raise t else t)

/-- Writes a name. -/
def name (o : DirectiveOptions) (t : Text) : Text :=
  o.place (if o.capitals || o.otherCase then raise t else t)

/-- Writes a number with at least a number of digits. -/
def number (o : DirectiveOptions) (digits : Nat) (n : Int) : Text :=
  let written := Text.ofInt n
  let missing := max digits o.width - written.length
  match o.pad with
  | some '-' => o.place written
  | some '_' => List.replicate missing ' ' ++ written
  | _ =>
    match written with
    | '-' :: ds => '-' :: List.replicate missing '0' ++ ds
    | ds => List.replicate missing '0' ++ ds

/-- Writes a number that is filled up with blanks unless a flag says how. -/
def blankNumber (o : DirectiveOptions) (digits : Nat) (n : Int) : Text :=
  number { o with pad := if o.pad = some '0' || o.pad = some '-' then o.pad else some '_' }
    digits n

end DirectiveOptions

namespace TimeStamp

/-- Two digits. -/
def two (n : Nat) : Text := Text.padded 2 n

/-- The time of the day. -/
def timeText (s : TimeStamp) :
    Text := two s.hour ++ [':'] ++ two s.minute ++ [':'] ++ two s.second

/-- The last two digits of a year. -/
def shortYear (year : Int) : Nat := (year % 100).toNat

/-- The date by month, day and year. -/
def dateText (s : TimeStamp) : Text :=
  two s.date.month ++ ['/'] ++ two s.date.day ++ ['/'] ++ two (shortYear s.date.year)

/-- The date and the time of the day. -/
def fullText (s : TimeStamp) : Text :=
  shortName s.date.dayName ++ [' '] ++ shortName s.date.monthName ++ [' ']
    ++ ({} : DirectiveOptions).blankNumber 2 s.date.day ++ [' '] ++ s.timeText ++ [' ']
    ++ Text.ofInt s.date.year

/-- The letters that a modifier may stand before. -/
def modified : Char → List Char
  | 'E' => "CPRTXYZcnprstuxyz".toList
  | _ => "BCGHIMPRSTUVWZbdeghjklmnprstuwyz".toList

/-- What a directive writes, if there is one with the letter. -/
def directive? (s : TimeStamp) (o : DirectiveOptions) (letter : Char) : Option Text :=
  if o.modifier.any fun m => letter ∉ modified m then none
  else
    match letter with
    | 'a' => some (o.name (shortName s.date.dayName))
    | 'A' => some (o.name s.date.dayName)
    | 'b' | 'h' => some (o.name (shortName s.date.monthName))
    | 'B' => some (o.name s.date.monthName)
    | 'c' => some (o.text s.fullText)
    | 'C' => some (o.number 1 (s.date.year / 100))
    | 'd' => some (o.number 2 s.date.day)
    | 'D' | 'x' => some (o.text s.dateText)
    | 'e' => some (o.blankNumber 2 s.date.day)
    | 'F' =>
      let day := two s.date.month ++ ['-'] ++ two s.date.day
      some (o.text (Text.ofInt s.date.year ++ ['-'] ++ day))
    | 'g' => some (o.number 2 (shortYear s.date.thursday.year))
    | 'G' => some (o.number 1 s.date.thursday.year)
    | 'H' => some (o.number 2 s.hour)
    | 'I' => some (o.number 2 s.dialHour)
    | 'j' => some (o.number 3 (s.date.yearDay + 1))
    | 'k' => some (o.blankNumber 2 s.hour)
    | 'l' => some (o.blankNumber 2 s.dialHour)
    | 'm' => some (o.number 2 s.date.month)
    | 'M' => some (o.number 2 s.minute)
    | 'n' => some (o.place ['\n'])
    | 'p' => some (o.place (if o.otherCase then Text.lower s.half else s.half))
    | 'P' => some (o.place (Text.lower s.half))
    | 'r' =>
      some (o.text (two s.dialHour ++ [':'] ++ two s.minute ++ [':'] ++ two s.second ++ [' ']
        ++ s.half))
    | 'R' => some (o.text (two s.hour ++ [':'] ++ two s.minute))
    | 's' => some (o.place (Text.ofInt s.seconds))
    | 'S' => some (o.number 2 s.second)
    | 't' => some (o.place ['\t'])
    | 'T' | 'X' => some (o.text s.timeText)
    | 'u' => some (o.number 1 (s.date.weekday + 1))
    | 'U' => some (o.number 2 (s.date.weekFrom 6))
    | 'V' => some (o.number 2 s.date.week)
    | 'w' => some (o.number 1 ((s.date.weekday + 1) % 7))
    | 'W' => some (o.number 2 (s.date.weekFrom 0))
    | 'y' => some (o.number 2 (shortYear s.date.year))
    | 'Y' => some (o.number 1 s.date.year)
    | 'z' => some []
    | 'Z' => some (if o.pad = some '-' then [] else o.place [])
    | _ => none

/-! ## Reading directives -/

/-- Reads flags, the later ones over the earlier. -/
def readFlags (o : DirectiveOptions) : Text → DirectiveOptions × Text
  | [] => (o, [])
  | c :: t =>
    if c = '_' || c = '-' || c = '0' then readFlags { o with pad := some c } t
    else if c = '^' then readFlags { o with capitals := true } t
    else if c = '#' then readFlags { o with otherCase := true } t
    else (o, c :: t)

/-- Reads a width, which counts as `most` if it is greater. -/
def readWidth (most : Nat) (o : DirectiveOptions) (t : Text) : DirectiveOptions × Text :=
  let digits := t.takeWhile Char.isDigit
  let width := digits.foldl (fun n c => min most (10 * n + (c.toNat - '0'.toNat))) 0
  ({ o with width }, t.drop digits.length)

/-- Reads a modifier. -/
def readModifier (o : DirectiveOptions) : Text → DirectiveOptions × Text
  | c :: t => if c = 'E' || c = 'O' then ({ o with modifier := some c }, t) else (o, c :: t)
  | [] => (o, [])

/-- Reads the options of a directive. -/
def readOptions (most : Nat) (t : Text) : DirectiveOptions × Text :=
  let (o, t) := readFlags {} t
  let (o, t) := readWidth most o t
  readModifier o t

/-- Writes a directive that follows a percent sign, and gives the rest. One that there is none
of stands for itself, as a name if its letter is that of a month's short name; a percent sign
stands for itself alone. -/
def writeDirective (s : TimeStamp) (most : Nat) (t : Text) : Text × Text :=
  let (o, rest) := readOptions most t
  match rest with
  | [] => (o.text ('%' :: t), [])
  | letter :: rest =>
    if letter = '%' then (o.place ['%'], rest)
    else
      let itself := '%' :: t.take (t.length - rest.length)
      let written := if letter = 'b' || letter = 'h' then o.name itself else o.text itself
      ((s.directive? o letter).getD written, rest)

/-- Writes a format. -/
def writeDirectives (s : TimeStamp) (most : Nat) : (fuel : Nat) → Text → Text
  | 0, _ | _, [] => []
  | fuel + 1, c :: t =>
    if c = '%' then
      let (written, rest) := s.writeDirective most t
      written ++ writeDirectives s most fuel rest
    else c :: writeDirectives s most fuel t

/-! ## Whole formats -/

/-- Fills the zone, its offset and the microseconds in. -/
def fillZone (s : TimeStamp) : Text → Text
  | [] => []
  | '%' :: c :: t =>
    if c = 'z' then ((s.zone.map fun z => z.offsetText []).getD []) ++ fillZone s t
    else if c = 'Z' then
      ((s.zone.map Zone.name).getD []).flatMap (fun c => if c = '%' then ['%', '%'] else [c])
        ++ fillZone s t
    else if c = 'f' then Text.padded 6 s.microsecond ++ fillZone s t
    else '%' :: c :: fillZone s t
  | c :: t => c :: fillZone s t

/-- The least of 1024 and its doubles that is no less than a number. -/
def spaceFor (n : Nat) : (fuel space : Nat) → Nat
  | 0, space => space
  | fuel + 1, space => if n ≤ space then space else spaceFor n fuel (2 * space)

/-- The space that is set aside for a format: 256 characters for each of its own. -/
def space (format : Text) : Nat := spaceFor (256 * format.length) format.length 1024

/-- Writes a stamp by a format with percent directives, which ends at a null character. -/
def byDirectives (s : TimeStamp) (format : Text) : Text :=
  let format := s.fillZone (format.takeWhile (· ≠ '\x00'))
  let most := space format
  let written := s.writeDirectives most format.length format
  if written.length < most then written else []

end TimeStamp

end SymbolGraph
