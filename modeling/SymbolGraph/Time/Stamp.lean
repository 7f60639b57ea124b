import SymbolGraph.Time.Date
set_option autoImplicit false

/-!
# Time stamps

A time stamp is what a clock shows, and the zone that the clock is set to if that is known.
-/

namespace SymbolGraph

/-- A time zone. -/
structure Zone where
  name : Text
  /-- The number of seconds that clocks are ahead of universal time. -/
  offset : Int
  deriving DecidableEq, Repr

/-- Universal time. -/
def Zone.universal : Zone := { name := "UTC".toList, offset := 0 }

/-- A time stamp. -/
structure TimeStamp where
  /-- What the clock shows, in microseconds after the start of 1970. -/
  clock : Int
  zone : Option Zone := none
  deriving DecidableEq, Repr

namespace TimeStamp

/-- The number of microseconds in a second. -/
def perSecond : Int := 1000000

/-- The stamp with a date and the seconds and microseconds of that day. -/
def ofDate (d : Date) (second microsecond : Nat) (zone : Option Zone := none) : TimeStamp :=
  { clock := (d.days * 86400 + second) * perSecond + microsecond, zone }

/-- The seconds after the start of 1970 that the clock shows. -/
def seconds (s : TimeStamp) : Int := s.clock / perSecond

/-- The date that the clock shows. -/
def date (s : TimeStamp) : Date := Date.ofDays (s.seconds / 86400)

/-- The second of the day. -/
def daySecond (s : TimeStamp) : Nat := (s.seconds % 86400).toNat

/-- The hour of the day. -/
def hour (s : TimeStamp) : Nat := s.daySecond / 3600

/-- The hour on a dial of twelve. -/
def dialHour (s : TimeStamp) : Nat := (s.hour + 11) % 12 + 1

/-- The word for the half of the day. -/
def half (s : TimeStamp) : Text := if s.hour < 12 then "AM".toList else "PM".toList

/-- The minute of the hour. -/
def minute (s : TimeStamp) : Nat := s.daySecond / 60 % 60

/-- The second of the minute. -/
def second (s : TimeStamp) : Nat := s.daySecond % 60

/-- The microsecond of the second. -/
def microsecond (s : TimeStamp) : Nat := (s.clock % perSecond).toNat

/-- The offset of the zone. -/
def offset (s : TimeStamp) : Int := (s.zone.map Zone.offset).getD 0

/-- The microseconds of universal time after the start of 1970. -/
def instant (s : TimeStamp) : Int := s.clock - s.offset * perSecond

/-- The stamp in universal time. -/
def universal (s : TimeStamp) : TimeStamp := { clock := s.instant, zone := some .universal }

end TimeStamp

/-- A number with leading zeros. -/
def Text.padded (width n : Nat) : Text :=
  let digits := Text.ofNat n
  List.replicate (width - digits.length) '0' ++ digits

/-- The offset of a zone, with a mark between its parts; seconds are written if there are
any. -/
def Zone.offsetText (z : Zone) (mark : Text) : Text :=
  let n := z.offset.natAbs
  let seconds := if n % 60 = 0 then [] else mark ++ Text.padded 2 (n % 60)
  [if 0 ≤ z.offset then '+' else '-'] ++ Text.padded 2 (n / 3600) ++ mark
    ++ Text.padded 2 (n / 60 % 60) ++ seconds

end SymbolGraph
