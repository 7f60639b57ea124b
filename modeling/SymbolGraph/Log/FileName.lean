import SymbolGraph.Log.FieldValue
import SymbolGraph.Text.Spelling
set_option autoImplicit false

/-!
# Names of log files

The name of a log file may have fields in braces; a brace of the name itself is written twice. A
field is a name, perhaps a mark with a letter for a conversion, and perhaps a colon with a
format, which may have fields of its own. The one field there is gives the time; behind its name
may stand the names of parts, after a dot, and the places of items, in brackets.

The whole name is read before any field is filled in, so a brace without its partner is reported
before a field that does not exist. The format of a field is read only when it is filled in.
-/

namespace SymbolGraph

/-- Why a log file's name is no name. -/
inductive FileNameFault
  | loneOpen
  | loneClose
  /-- A field does not end. -/
  | openField
  /-- A brace stands in the name of a field. -/
  | braceInField
  /-- The text ends where the letter of a conversion should be. -/
  | noConversion
  /-- The letter of a conversion is followed by neither a colon nor the end of the field. -/
  | longConversion
  /-- The format of a field does not end. -/
  | openFormat
  /-- A field is given by its place. -/
  | byPlace
  /-- A field is given by a place that is too large. -/
  | placeTooLarge
  /-- Formats lie too deep in each other. -/
  | tooDeep
  /-- There is no such field. -/
  | unknown (name : Text)
  /-- A part is asked for by an empty name. -/
  | emptyPart
  /-- An item is asked for in brackets that do not end. -/
  | openItem
  /-- A bracket is followed by neither a part nor an item. -/
  | afterItem
  /-- There is no such conversion. -/
  | unknownConversion (letter : Char)
  /-- A field cannot be written. -/
  | field (fault : FieldFault)
  deriving DecidableEq, Repr

/-- The text of a fault, for those that have one. -/
def FileNameFault.message : FileNameFault → Text
  | loneOpen => "Single '\x7b' encountered in format string".toList
  | loneClose => "Single '\x7d' encountered in format string".toList
  | openField => "expected '\x7d' before end of string".toList
  | braceInField => "unexpected '\x7b' in field name".toList
  | noConversion => "end of string while looking for conversion specifier".toList
  | longConversion => "expected ':' after conversion specifier".toList
  | openFormat => "unmatched '\x7b' in format spec".toList
  | byPlace => "Format string contains positional fields".toList
  | placeTooLarge => "Too many decimal digits in format string".toList
  | tooDeep => "Max string recursion exceeded".toList
  | unknown name => Text.quoted name
  | emptyPart => "Empty attribute in format string".toList
  | openItem => "Missing ']' in format string".toList
  | afterItem => "Only '.' or '[' may follow ']' in format field specifier".toList
  | unknownConversion c =>
    "Unknown conversion specifier ".toList ++
      (if 0x20 < c.toNat && c.toNat <
        0x7F then [c] else "\\x".toList ++ Nat.toDigits 16 c.toNat)
  | field fault => fault.message

/-- A part of a log file's name. -/
inductive NamePart
  /-- A character of the name itself. -/
  | char (c : Char)
  | field (name : Text) (conversion : Option Char) (format : Text)
  deriving DecidableEq, Repr

namespace FileName

/-! ## Reading -/

/-- Reads the name of a field, up to the character that ends it. Between brackets any character
may stand. -/
def readFieldName : Bool → Text → Except FileNameFault (Text × Char × Text)
  | _, [] => .error .openField
  | inBrackets, c :: t =>
    let more (inBrackets : Bool) : Except FileNameFault (Text × Char × Text) :=
      (readFieldName inBrackets t).map fun (name, last, rest) => (c :: name, last, rest)
    if inBrackets then more (c ≠ ']')
    else if c = '\x7b' then .error .braceInField
    else if c = '\x7d' || c = ':' || c = '!' then .ok ([], c, t)
    else more (c = '[')

/-- Reads a format up to the brace that ends its field; `inner` fields are open in it. -/
def readFormat : (inner : Nat) → Text → Except FileNameFault (Text × Text)
  | _, [] => .error .openFormat
  | inner, c :: t =>
    let more (inner : Nat) : Except FileNameFault (Text × Text) :=
      (readFormat inner t).map fun (format, rest) => (c :: format, rest)
    if c = '\x7b' then more (inner + 1)
    else if c = '\x7d' then
      match inner with
      | 0 => .ok ([], t)
      | inner + 1 => more inner
    else more inner

/-- Reads a field after its opening brace. -/
def readField (t : Text) : Except FileNameFault (NamePart × Text) := do
  let (name, last, t) ← readFieldName false t
  let formatted (conversion : Option Char) (t : Text) :
      Except FileNameFault (NamePart × Text) :=
    (readFormat 0 t).map fun (format, rest) => (.field name conversion format, rest)
  if last = '\x7d' then return (.field name none [], t)
  else if last = ':' then formatted none t
  else
    match t with
    | [] => .error .noConversion
    | [c] => formatted (some c) []
    | c :: d :: t =>
      if d = '\x7d' then return (.field name (some c) [], t)
      else if d = ':' then formatted (some c) t
      else .error .longConversion

/-- Reads the next part of a name that goes on with a character. -/
def readPart (c : Char) (t : Text) : Except FileNameFault (NamePart × Text) :=
  if c = '\x7b' then
    match t with
    | [] => .error .loneOpen
    | d :: rest => if d = c then .ok (.char c, rest) else readField (d :: rest)
  else if c = '\x7d' then
    match t with
    | [] => .error .loneClose
    | d :: rest => if d = c then .ok (.char c, rest) else .error .loneClose
  else .ok (.char c, t)

/-- Reads all parts of a name. -/
def readParts : (fuel : Nat) → Text → Except FileNameFault (List NamePart)
  | 0, _ | _, [] => .ok []
  | fuel + 1, c :: t => do
    let (part, rest) ← readPart c t
    return part :: (← readParts fuel rest)

/-! ## Filling in -/

/-- The greatest place that a field can be given by. -/
def maxPlace : Nat := 9223372036854775807

/-- The place that decimal digits name, after some that name `place`. -/
def placeFrom (place : Nat) : Text → Except FileNameFault (Option Nat)
  | [] => .ok (some place)
  | c :: t =>
    match Text.digitValue? c with
    | none => .ok none
    | some d => if maxPlace < 10 * place + d then .error .placeTooLarge
      else placeFrom (10 * place + d) t

/-- The place that a text names, if it is digits. -/
def placeOf (t : Text) : Except FileNameFault (Option Nat) :=
  if t = [] then .ok none else placeFrom 0 t

/-- A character that ends a name before a part of what it names. -/
def startsPart (c : Char) : Bool := c = '.' || c = '['

/-- The part or the item of a value that a text starts with, and the rest. -/
def readStep (v : FieldValue) (c : Char) (t : Text) :
    Except FileNameFault (FieldValue × Text) := do
  if c = '.' then
    let name := t.takeWhile fun c => ! startsPart c
    if name = [] then throw .emptyPart
    return (← (v.part name).mapError .field, t.drop name.length)
  else if c = '[' then
    let name := t.takeWhile (· ≠ ']')
    if name.length = t.length then throw .openItem
    let place ← placeOf name
    if name = [] then throw .emptyPart
    return (← (v.item place).mapError .field, t.drop (name.length + 1))
  else throw .afterItem

/-- The parts and items of a value, one after the other. -/
def readSteps (v : FieldValue) : (fuel : Nat) → Text → Except FileNameFault FieldValue
  | 0, _ | _, [] => .ok v
  | fuel + 1, c :: t => do
    let (v, rest) ← readStep v c t
    readSteps v fuel rest

/-- The name of the one field. -/
def timeField : Text := "time".toList

/-- Looks a field up. -/
def fieldValue (time : TimeStamp) (name : Text) : Except FileNameFault FieldValue := do
  let first := name.takeWhile fun c => ! startsPart c
  let place ← placeOf first
  if first = [] || place.isSome then throw .byPlace
  else if first ≠ timeField then throw (.unknown first)
  else readSteps (.time time) name.length (name.drop first.length)

/-- Converts a value. -/
def convert (v : FieldValue) : Option Char → Except FileNameFault FieldValue
  | none => .ok v
  | some c =>
    if c = 's' then .ok (.text v.shown)
    else if c = 'r' || c = 'a' then .ok (.text v.displayed)
    else .error (.unknownConversion c)

/-- Fills in a name whose formats are filled in by `fill`. -/
def fillWith (time : TimeStamp) (fill : Text → Except FileNameFault Text) :
    (fuel : Nat) → Text → Except FileNameFault Text
  | 0, _ | _, [] => .ok []
  | fuel + 1, c :: t => do
    match ← readPart c t with
    | (.char c, rest) => return c :: (← fillWith time fill fuel rest)
    | (.field name conversion format, rest) =>
      let v ← convert (← fieldValue time name) conversion
      let format ← if format.contains '\x7b' then fill format else pure format
      let written ← (v.write format).mapError .field
      return written ++ (← fillWith time fill fuel rest)

/-- Fills in a name in which formats lie less than `depth` deep in each other. -/
def fill (time : TimeStamp) : (depth : Nat) → Text → Except FileNameFault Text
  | 0, _ => .error .tooDeep
  | depth + 1, t => fillWith time (fill time depth) t.length t

/-- How deep formats may lie in each other. -/
def maxDepth : Nat := 2

/-- The name that a text comes to at a time. -/
def read (time : TimeStamp) (t : Text) : Except FileNameFault Text := do
  discard (readParts t.length t)
  fill time maxDepth t

/-- The name that a string comes to at a time. A string with halves is spelled for it. -/
def readPoints (time : TimeStamp) (s : Points) : Except FileNameFault Points :=
  match s.text? with
  | some t => (read time t).map Text.points
  | none => (read time s.spelled).map Text.unspelled

end FileName

end SymbolGraph
