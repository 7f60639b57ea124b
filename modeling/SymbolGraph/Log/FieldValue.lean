import SymbolGraph.Number.Layout
import SymbolGraph.Text.Printable
import SymbolGraph.Time.Pattern
set_option autoImplicit false

/-!
# Values of fields

What the fields in a log file's name stand for: the time, and parts of it that are asked for by
name. A value is written by a format of its own, or shown as a text that is then laid out.
-/

namespace SymbolGraph

/-- The class of a value, and the module that the class is in. -/
structure ValueClass where
  module : String
  name : String
  deriving DecidableEq, Repr

/-- The name of a class with its module, which is left out for those that are always there. -/
def ValueClass.fullName (c : ValueClass) : Text :=
  if c.module = "builtins" then c.name.toList else c.module.toList ++ ['.'] ++ c.name.toList

/-- What a field stands for. -/
inductive FieldValue
  /-- The time. -/
  | time (s : TimeStamp)
  /-- The moment that the time is. -/
  | moment (s : TimeStamp)
  /-- A bound of moments. -/
  | bound (s : TimeStamp)
  | zone (shown displayed : Text)
  | span (days seconds microseconds : Nat) (shown displayed : Text)
  | number (n : Nat)
  | text (t : Text)
  | nothing
  | class_ (c : ValueClass)
  | classes (cs : List ValueClass)
  deriving DecidableEq, Repr

/-- Why a field cannot be written. -/
inductive FieldFault
  /-- A value has no such part. -/
  | noPart
  /-- A value has no items. -/
  | noItems
  /-- A value has not so many items. -/
  | noItem
  /-- A value has no formats. -/
  | noFormat
  | layout (fault : LayoutFault)
  | pattern (fault : TimeStamp.PatternFault)
  deriving DecidableEq, Repr

/-- The text of a fault, for those that have one. -/
def FieldFault.message : FieldFault → Text
  | noPart | noItems | noItem | noFormat => []
  | layout fault => fault.message
  | pattern fault => fault.message

namespace FieldValue

/-! ## Parts -/

/-- The class of the time. -/
def timeClass : ValueClass := ⟨"loguru._file_sink", "FileDateFormatter"⟩

/-- The class of the moment that the time is. -/
def momentClass : ValueClass := ⟨"loguru._datetime", "datetime"⟩

/-- The class of moments. -/
def instantClass : ValueClass := ⟨"datetime", "datetime"⟩

/-- The class of zones. -/
def zoneClass : ValueClass := ⟨"datetime", "timezone"⟩

/-- The class of all values. -/
def anyClass : ValueClass := ⟨"builtins", "object"⟩

/-- The classes that a class builds on, the nearest first. -/
def bases (c : ValueClass) : List ValueClass :=
  if c = anyClass then []
  else if c = momentClass then [instantClass, ⟨"datetime", "date"⟩, anyClass]
  else if c = instantClass then [⟨"datetime", "date"⟩, anyClass]
  else if c = zoneClass then [⟨"datetime", "tzinfo"⟩, anyClass]
  else [anyClass]

/-- The class of a value. -/
def valueClass : FieldValue → ValueClass
  | time _ => timeClass
  | moment _ => momentClass
  | bound _ => instantClass
  | zone _ _ => zoneClass
  | span _ _ _ _ _ => ⟨"datetime", "timedelta"⟩
  | number _ => ⟨"builtins", "int"⟩
  | text _ => ⟨"builtins", "str"⟩
  | nothing => ⟨"builtins", "NoneType"⟩
  | class_ _ => ⟨"builtins", "type"⟩
  | classes _ => ⟨"builtins", "tuple"⟩

/-- The zone of a stamp. -/
def zoneOf (s : TimeStamp) : FieldValue :=
  match s.zone with
  | none => nothing
  | some z =>
    zone z.name ("datetime.timezone(datetime.timedelta(".toList
      ++ (if z.offset = 0 then ['0'] else "seconds=".toList ++ Text.ofInt z.offset)
      ++ "), ".toList ++ Text.quoted z.name ++ [')'])

/-- Universal time. -/
def universalZone : FieldValue := zone "UTC".toList "datetime.timezone.utc".toList

/-- The zone that is most behind. -/
def firstZone : FieldValue :=
  zone "UTC-23:59".toList "datetime.timezone(datetime.timedelta(days=-1, seconds=60))".toList

/-- The zone that is most ahead. -/
def lastZone : FieldValue :=
  zone "UTC+23:59".toList "datetime.timezone(datetime.timedelta(seconds=86340))".toList

/-- The first moment. -/
def firstMoment : FieldValue := bound (.ofDate ⟨1, 1, 1⟩ 0 0)

/-- The last moment. -/
def lastMoment : FieldValue := bound (.ofDate ⟨9999, 12, 31⟩ 86399 999999)

/-- The least span between two moments. -/
def leastSpan : FieldValue :=
  span 0 0 1 "0:00:00.000001".toList "datetime.timedelta(microseconds=1)".toList

/-- The part of a stamp with a name. -/
def stampPart? (s : TimeStamp) : String → Option FieldValue
  | "year" => some (number s.date.year.toNat)
  | "month" => some (number s.date.month)
  | "day" => some (number s.date.day)
  | "hour" => some (number s.hour)
  | "minute" => some (number s.minute)
  | "second" => some (number s.second)
  | "microsecond" => some (number s.microsecond)
  | "fold" => some (number 0)
  | "tzinfo" => some (zoneOf s)
  | "min" => some firstMoment
  | "max" => some lastMoment
  | "resolution" => some leastSpan
  | _ => none

/-- The part of a value with a name, but for its class. -/
def ownPart? (v : FieldValue) (name : String) : Option FieldValue :=
  match v, name with
  | time s, "datetime" => some (moment s)
  | time _, "__doc__" | time _, "__weakref__" => some nothing
  | moment _, "__doc__" | moment _, "__weakref__" => some nothing
  | time _, "__module__" | moment _, "__module__" => some (text v.valueClass.module.toList)
  | moment s, name | bound s, name => stampPart? s name
  | zone _ _, "utc" => some universalZone
  | zone _ _, "min" => some firstZone
  | zone _ _, "max" => some lastZone
  | span days _ _ _ _, "days" => some (number days)
  | span _ seconds _ _ _, "seconds" => some (number seconds)
  | span _ _ microseconds _ _, "microseconds" => some (number microseconds)
  | span _ _ _ _ _, "resolution" => some leastSpan
  | number n, "real" | number n, "numerator" => some (number n)
  | number _, "imag" => some (number 0)
  | number _, "denominator" => some (number 1)
  | class_ c, "__name__" | class_ c, "__qualname__" => some (text c.name.toList)
  | class_ c, "__module__" => some (text c.module.toList)
  | class_ c, "__mro__" => some (classes (c :: bases c))
  | class_ c, "__bases__" => some (classes ((bases c).take 1))
  | class_ c, "__base__" => some (((bases c).head?.map class_).getD nothing)
  | class_ c, "__doc__" => if c = timeClass || c = momentClass then some nothing else none
  | _, _ => none

/-- The part of a value with a name. -/
def part (v : FieldValue) (name : Text) : Except FieldFault FieldValue :=
  if name = "__class__".toList then .ok (class_ v.valueClass)
  else
    match v.ownPart? (String.ofList name) with
    | some part => .ok part
    | none => .error .noPart

/-- The item of a value at a place, or with a name if there is no place. -/
def item (v : FieldValue) (place : Option Nat) : Except FieldFault FieldValue :=
  match v, place with
  | text t, some i => (t[i]?.map fun c => Except.ok (text [c])).getD (.error .noItem)
  | classes cs, some i => (cs[i]?.map fun c => Except.ok (class_ c)).getD (.error .noItem)
  | _, _ => .error .noItems

/-! ## Writing -/

/-- The digits of a stamp: date and time of the day, and the offset of its zone. -/
def stampText (s : TimeStamp) : Text :=
  let d := s.date
  let fraction := if s.microsecond = 0 then [] else '.' :: Text.padded 6 s.microsecond
  Text.padded 4 d.year.toNat ++ ['-'] ++ TimeStamp.two d.month ++ ['-'] ++ TimeStamp.two d.day
    ++ [' '] ++ s.timeText ++ fraction ++ ((s.zone.map fun z => z.offsetText [':']).getD [])

/-- A stamp as a call that makes it. -/
def stampCall (name : Text) (s : TimeStamp) : Text :=
  let d := s.date
  let numbers := [d.year.toNat, d.month, d.day, s.hour, s.minute]
    ++ (if s.microsecond ≠ 0 then [s.second, s.microsecond]
      else if s.second ≠ 0 then [s.second] else [])
  let zone := match zoneOf s with
    | zone _ displayed => ", tzinfo=".toList ++ displayed
    | _ => []
  name ++ ['('] ++ Text.join ", ".toList (numbers.map Text.ofNat) ++ zone ++ [')']

/-- A class as a text. -/
def classText (c : ValueClass) : Text := "<class '".toList ++ c.fullName ++ "'>".toList

/-- The value as a text. -/
def shown : FieldValue → Text
  | v@(time _) =>
    "<".toList ++ v.valueClass.fullName ++ " object at 0x7f0000000000>".toList
  | moment s | bound s => stampText s
  | zone shown _ | span _ _ _ shown _ => shown
  | number n => Text.ofNat n
  | text t => t
  | nothing => "None".toList
  | class_ c => classText c
  | classes [c] => ['('] ++ classText c ++ ",)".toList
  | classes cs => ['('] ++ Text.join ", ".toList (cs.map classText) ++ [')']

/-- The value as messages show it. -/
def displayed : FieldValue → Text
  | moment s => stampCall "datetime".toList s
  | bound s => stampCall "datetime.datetime".toList s
  | zone _ displayed | span _ _ _ _ displayed => displayed
  | text t => Text.quoted t
  | v => v.shown

/-- The format of the time in a log file's name that is given none. -/
def nameFormat : Text := "%Y-%m-%d_%H-%M-%S_%f".toList

/-- Writes a value by a format. -/
def write (v : FieldValue) (format : Text) : Except FieldFault Text :=
  match v with
  | time s => (s.write (if format = [] then nameFormat else format)).mapError .pattern
  | moment s => (s.write format).mapError .pattern
  | bound s => .ok (if format = [] then v.shown else s.byDirectives format)
  | number n => (Text.numberLaidOut n format).mapError .layout
  | text t => (Text.laidOut t format).mapError .layout
  | v => if format = [] then .ok v.shown else .error .noFormat

end FieldValue

end SymbolGraph
