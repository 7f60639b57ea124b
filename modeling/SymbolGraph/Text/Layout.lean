import SymbolGraph.Text.Integer
import SymbolGraph.Text.Point
set_option autoImplicit false

/-!
# Layouts

How a text or a number is laid out in a field: what fills the field up and on which side, how
wide it is, how much of a text is shown, and a letter for the form of a number. A layout is
written in that order, each part only if it is wanted. Some parts are for numbers only.
-/

namespace SymbolGraph

/-- What is laid out. -/
inductive LaidOut
  | text
  | integer
  deriving DecidableEq, Repr

/-- The word for what is laid out. -/
def LaidOut.word : LaidOut → Text
  | text => "str".toList
  | integer => "int".toList

/-- Why something cannot be laid out. -/
inductive LayoutFault
  /-- A number in a layout is too great. -/
  | tooManyDigits
  /-- There is no number behind the point. -/
  | noPrecision
  /-- A comma and an underscore are asked for between digits. -/
  | bothSeparators
  /-- A form has no marks between its digits. -/
  | separated (separator letter : Char)
  /-- A text is no layout. -/
  | malformed (layout : Text) (what : LaidOut)
  /-- There is no such form. -/
  | unknownForm (letter : Char) (what : LaidOut)
  /-- A sign is asked for in a text; a blank counts as one. -/
  | signInText (blank : Bool)
  /-- A text is to have no minus before zero. -/
  | zeroInText
  /-- The longer form of a text is asked for. -/
  | alternateInText
  /-- A text is to be filled up behind its sign. -/
  | innerInText
  /-- An integer is to be cut. -/
  | precisionInInteger
  /-- An integer is to have no minus before zero. -/
  | zeroInInteger
  /-- A sign is asked for with a character. -/
  | signInChar
  /-- The longer form of a character is asked for. -/
  | alternateInChar
  /-- More digits are asked for than can be counted. -/
  | precisionTooBig
  /-- There is no room for a field of the width. -/
  | noRoom
  deriving DecidableEq, Repr

/-- A character as messages about layouts name it. -/
def Text.shownCode (c : Char) : Text :=
  if 0x20 < c.toNat && c.toNat < 0x80 then [c] else "\\x".toList ++ Nat.toDigits 16 c.toNat

namespace LayoutFault

/-- The text of a fault, for those that have one. -/
def message : LayoutFault → Text
  | tooManyDigits => "Too many decimal digits in format string".toList
  | noPrecision => "Format specifier missing precision".toList
  | bothSeparators => "Cannot specify both ',' and '_'.".toList
  | separated separator letter =>
    "Cannot specify '".toList ++ [separator] ++ "' with '".toList ++ Text.shownCode letter
      ++ "'.".toList
  | malformed layout what =>
    "Invalid format specifier '".toList ++ layout ++ "' for object of type '".toList
      ++ what.word ++ ['\'']
  | unknownForm letter what =>
    "Unknown format code '".toList ++ Text.shownCode letter ++ "' for object of type '".toList
      ++ what.word ++ ['\'']
  | signInText blank =>
    (if blank then "Space" else "Sign").toList
      ++ " not allowed in string format specifier".toList
  | zeroInText =>
    "Negative zero coercion (z) not allowed in string format specifier".toList
  | alternateInText => "Alternate form (#) not allowed in string format specifier".toList
  | innerInText => "'=' alignment not allowed in string format specifier".toList
  | precisionInInteger => "Precision not allowed in integer format specifier".toList
  | zeroInInteger =>
    "Negative zero coercion (z) not allowed in integer format specifier".toList
  | signInChar => "Sign not allowed with integer format specifier 'c'".toList
  | alternateInChar => "Alternate form (#) not allowed with integer format specifier 'c'".toList
  | precisionTooBig => "precision too big".toList
  | noRoom => []

end LayoutFault

/-- Where a field is filled up. -/
inductive Alignment
  /-- What is laid out stands on the left. -/
  | left
  | right
  | center
  /-- The field is filled up between the sign of a number and its digits. -/
  | inner
  deriving DecidableEq, Repr

/-- The alignment that a character asks for. -/
def Alignment.ofChar? : Char → Option Alignment
  | '<' => some left
  | '>' => some right
  | '^' => some center
  | '=' => some inner
  | _ => none

/-- A layout. -/
structure Layout where
  fill : Char := ' '
  alignment : Alignment
  sign : Option Char := none
  /-- Zero has no minus. -/
  plainZero : Bool := false
  /-- The longer form of a number is wanted. -/
  alternate : Bool := false
  width : Nat := 0
  /-- What stands between groups of digits. -/
  separator : Option Char := none
  precision : Option Nat := none
  letter : Char
  deriving DecidableEq, Repr

namespace Layout

/-! ## Reading -/

/-- The greatest number in a layout. -/
def maxNumber : Nat := 9223372036854775807

/-- Reads a number that goes on after digits that denote `n`: the number, and the rest. -/
def readNumberFrom (n : Nat) : Text → Except LayoutFault (Nat × Text)
  | [] => .ok (n, [])
  | c :: t =>
    match Text.digitValue? c with
    | none => .ok (n, c :: t)
    | some d =>
      if maxNumber < 10 * n + d then .error .tooManyDigits else readNumberFrom (10 * n + d) t

/-- Reads a number, if digits are there. -/
def readNumber (t : Text) : Except LayoutFault (Option Nat × Text) := do
  let (n, rest) ← readNumberFrom 0 t
  return (if rest.length = t.length then none else some n, rest)

/-- A character that a text starts with, if it is one of some; and the rest. -/
def readOneOf (cs : List Char) : Text → Option Char × Text
  | [] => (none, [])
  | c :: t => if c ∈ cs then (some c, t) else (none, c :: t)

/-- What is on from the start when something is laid out. -/
def initial : LaidOut → Layout
  | .text => { alignment := .left, letter := 's' }
  | .integer => { alignment := .right, letter := 'd' }

/-- Reads the alignment, with a character to fill up before it if there is one; tells also if
there was such a character. -/
def readAlignment (l : Layout) (t : Text) : Layout × Option Alignment × Bool × Text :=
  match t with
  | fill :: c :: rest =>
    match Alignment.ofChar? c, Alignment.ofChar? fill with
    | some alignment, _ => ({ l with fill, alignment }, some alignment, true, rest)
    | none, some alignment => ({ l with alignment }, some alignment, false, c :: rest)
    | none, none => (l, none, false, t)
  | [c] =>
    match Alignment.ofChar? c with
    | some alignment => ({ l with alignment }, some alignment, false, [])
    | none => (l, none, false, t)
  | [] => (l, none, false, [])

/-- Reads a zero in front of the width, which fills numbers up behind their sign. -/
def readZero (what : LaidOut) (l : Layout) (aligned : Bool) (t : Text) : Layout × Text :=
  match t with
  | '0' :: rest =>
    let alignment := if ! aligned && what = .integer then .inner else l.alignment
    ({ l with fill := '0', alignment }, rest)
  | t => (l, t)

/-- Reads what stands between groups of digits. -/
def readSeparator (t : Text) : Except LayoutFault (Option Char × Text) :=
  let (comma, t) := readOneOf [','] t
  let (underscore, t) := readOneOf ['_'] t
  if underscore.isSome && (comma.isSome || t.head? = some ',') then .error .bothSeparators
  else .ok (comma.or underscore, t)

/-- Reads a precision. -/
def readPrecision : Text → Except LayoutFault (Option Nat × Text)
  | '.' :: t => do
    match ← readNumber t with
    | (none, _) => throw .noPrecision
    | (some n, t) => return (some n, t)
  | t => .ok (none, t)

/-- Checks that the digits of a form may stand in groups. -/
def checkSeparator (l : Layout) : Except LayoutFault Layout :=
  match l.separator with
  | none => .ok l
  | some c =>
    if l.letter ∈ "defgEG%F".toList || c = '_' && l.letter ∈ "boxX".toList then .ok l
    else .error (.separated c l.letter)

/-- Reads a layout. -/
def read (what : LaidOut) (layout : Text) : Except LayoutFault Layout := do
  let (l, alignment, filled, t) := readAlignment (initial what) layout
  let (sign, t) := readOneOf [' ', '+', '-'] t
  let (zero, t) := readOneOf ['z'] t
  let (alternate, t) := readOneOf ['#'] t
  let (l, t) := if filled then (l, t) else readZero what l alignment.isSome t
  let (width, t) ← readNumber t
  let (separator, t) ← readSeparator t
  let (precision, t) ← readPrecision t
  let l := { l with
    sign, plainZero := zero.isSome, alternate := alternate.isSome, width := width.getD 0
    separator, precision }
  match t with
  | [] => checkSeparator l
  | [letter] => checkSeparator { l with letter }
  | _ => throw (.malformed layout what)

/-! ## Laying out -/

/-- A field from this width on has no room. -/
def noRoomFrom : Nat := Nat.pow 2 40

/-- The width from on which fields are all the same: no path is so long. -/
def widest : Nat := 65536

/-- Fills a field up around a start, such as a sign, and a body. -/
def fillUp (l : Layout) (start body : Text) : Except LayoutFault Text :=
  let length := start.length + body.length
  let missing := min l.width widest - length
  let filled (n : Nat) : Text := List.replicate n l.fill
  if noRoomFrom ≤ l.width then .error .noRoom
  else .ok <|
    match l.alignment with
    | .left => start ++ body ++ filled missing
    | .right => filled missing ++ start ++ body
    | .center => filled (missing / 2) ++ start ++ body ++ filled (missing - missing / 2)
    | .inner => start ++ filled missing ++ body

/-- Lays a text out. -/
def text (l : Layout) (t : Text) : Except LayoutFault Text := do
  if l.letter ≠ 's' then throw (.unknownForm l.letter .text)
  if let some sign := l.sign then throw (.signInText (sign = ' '))
  if l.plainZero then throw .zeroInText
  if l.alternate then throw .alternateInText
  if l.alignment = .inner then throw .innerInText
  l.fillUp [] (match l.precision with
    | none => t
    | some n => t.take n)

end Layout

/-- Lays a text out as a layout says; without a layout it is itself. -/
def Text.laidOut (t layout : Text) : Except LayoutFault Text := do
  if layout = [] then return t
  (← Layout.read .text layout).text t

end SymbolGraph
