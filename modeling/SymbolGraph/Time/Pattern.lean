import SymbolGraph.Time.Directive
set_option autoImplicit false

/-!
# Patterns

A format with marks of letters for the parts of a time stamp. Of several marks that a text may
start with the longest counts. A mark between brackets stands for itself without them, and so do
the brackets around nothing; all other characters stand for themselves. A format with a percent
sign has directives in place of marks, and one that ends in `!UTC` is about universal time.
-/

namespace SymbolGraph.TimeStamp

/-- The microseconds cut to a number of digits. -/
def fraction (s : TimeStamp) (digits : Nat) : Text := (Text.padded 6 s.microsecond).take digits

/-- The marks with what they stand for; longer ones come before those that they start with. -/
def marks (s : TimeStamp) : List (String × Text) :=
  let d := s.date
  [("HH", two s.hour), ("H", Text.ofNat s.hour), ("hh", two s.dialHour),
    ("h", Text.ofNat s.dialHour), ("mm", two s.minute), ("m", Text.ofNat s.minute),
    ("ss", two s.second), ("s", Text.ofNat s.second), ("SSSSSS", s.fraction 6),
    ("SSSSS", s.fraction 5), ("SSSS", s.fraction 4), ("SSS", s.fraction 3),
    ("SS", s.fraction 2), ("S", s.fraction 1), ("YYYY", Text.padded 4 d.year.toNat),
    ("YY", two (shortYear d.year)), ("MMMM", d.monthName), ("MMM", shortName d.monthName),
    ("MM", two d.month), ("M", Text.ofNat d.month), ("DDDD", Text.padded 3 (d.yearDay + 1)),
    ("DDD", Text.ofNat (d.yearDay + 1)), ("DD", two d.day), ("D", Text.ofNat d.day),
    ("ZZ", (s.zone.getD .universal).offsetText []),
    ("Z", (s.zone.getD .universal).offsetText [':']), ("zz", (s.zone.getD .universal).name),
    ("A", s.half), ("X", Text.ofInt (s.instant / perSecond)), ("x", Text.ofInt s.instant),
    ("E", Text.ofNat (d.weekday + 1)), ("Q", Text.ofNat ((d.month + 2) / 3)),
    ("dddd", d.dayName), ("ddd", shortName d.dayName), ("d", Text.ofNat d.weekday)]

/-- The end of a format that is about universal time. -/
def universalMark : Text := "!UTC".toList

/-- What may stand between brackets: nothing, a mark, or the end of a format. -/
def bracketed (s : TimeStamp) : List Text :=
  [] :: universalMark :: s.marks.map fun (mark, _) => mark.toList

/-- The mark that a text starts with: what it stands for, and the number of characters after its
first. -/
def mark? (s : TimeStamp) (t : Text) : Option (Text × Nat) :=
  let marked := s.marks.findSome? fun (mark, part) =>
    if mark.toList.isPrefixOf t then some (part, mark.toList.length - 1) else none
  let inBrackets := s.bracketed.findSome? fun inner =>
    if ('[' :: inner ++ [']']).isPrefixOf t then some (inner, inner.length + 1) else none
  marked.or inBrackets

/-- Writes a stamp in a format with marks; `skip` characters belong to a mark that is
written. -/
def writeMarks (s : TimeStamp) : (skip : Nat) → Text → Text
  | _, [] => []
  | skip + 1, _ :: t => writeMarks s skip t
  | 0, c :: t =>
    match s.mark? (c :: t) with
    | some (part, skip) => part ++ writeMarks s skip t
    | none => c :: writeMarks s 0 t

/-- A format asks for more digits of a second than there are. -/
inductive PatternFault
  | tooFine
  deriving DecidableEq, Repr

/-- The text of a fault. -/
def PatternFault.message : PatternFault → Text
  | tooFine =>
    ("Invalid time format: the provided format string contains more than six successive 'S' "
      ++ "characters. This may be due to an attempt to use nanosecond precision, which is not "
      ++ "supported.").toList

/-- The marks of seven digits of a second, which are one too many. -/
def tooFineMark : Text := List.replicate 7 'S'

/-- The directives of a stamp that is given no format. -/
def fullDirectives : Text := "%Y-%m-%dT%H:%M:%S.%f%z".toList

/-- Writes a stamp. -/
def write (s : TimeStamp) (format : Text) : Except PatternFault Text :=
  let (s, format) := match Text.dropTail? universalMark format with
    | some format => (s.universal, format)
    | none => (s, format)
  let format := if format = [] then fullDirectives else format
  if format.contains '%' then .ok (s.byDirectives format)
  else if (Text.breakOn? tooFineMark format).isSome then .error .tooFine
  else .ok (s.writeMarks 0 format)

end SymbolGraph.TimeStamp
