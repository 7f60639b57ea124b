import SymbolGraph.Json.Basic
set_option autoImplicit false

/-!
# Writing JSON

A value is written on one line, with a blank after commas and colons; or, with an indent, every
item and member on a line of its own, indented once for each depth. Empty lists and objects are
written `[]` and `\x7b\x7d` either way. Of the characters of a string only the double quote, the
backslash and the controls below the space are escaped. A writer may have the limits that a
reader may have.
-/

namespace SymbolGraph.Json

/-- A character of a string. -/
def writeChar (c : Char) : Text :=
  if c = '"' then "\\\"".toList
  else if c = '\\' then "\\\\".toList
  else if c = '\n' then "\\n".toList
  else if c = '\r' then "\\r".toList
  else if c = '\t' then "\\t".toList
  else if c = '\x08' then "\\b".toList
  else if c = '\x0c' then "\\f".toList
  else if c.toNat < 0x20 then "\\u".toList ++ Text.hex 4 c.toNat
  else [c]

/-- A point of a string. Halves of surrogate pairs are not escaped. -/
def writePoint : Point → Points
  | .char c => (writeChar c).points
  | .half n => [.half n]

/-- A string between double quotes. -/
def writeString (s : Points) : Points := [.char '"'] ++ s.flatMap writePoint ++ [.char '"']

/-- The indentation by a number of spaces for each depth. -/
def spaces (n : Nat) : Option Text := some (List.replicate n ' ')

/-- What stands before an item at a depth: a line feed and the indentation, or nothing. -/
def gap (indent : Option Text) (depth : Nat) : Points :=
  match indent with
  | none => []
  | some unit => .char '\n' :: Text.points (List.replicate depth unit).flatten

/-- What stands between two items at a depth. -/
def comma (indent : Option Text) (depth : Nat) : Points :=
  match indent with
  | none => Points.ofString ", "
  | some _ => .char ',' :: gap indent depth

/-- What stands between a key and its value. -/
def colon : Points := Points.ofString ": "

mutual
/-- Writes a value at a depth. -/
def writeAt (indent : Option Text) (depth : Nat) : Json → Points
  | null => Points.ofString "null"
  | bool true => Points.ofString "true"
  | bool false => Points.ofString "false"
  | int n => (Text.ofInt n).points
  | float x => (x.render "Infinity".toList "NaN".toList).points
  | str s => writeString s
  | arr [] => [.char '[', .char ']']
  | arr (v :: vs) =>
    [.char '['] ++ gap indent (depth + 1) ++ writeAt indent (depth + 1) v
      ++ writeItems indent (depth + 1) vs ++ gap indent depth ++ [.char ']']
  | obj [] => [.char '\x7b', .char '\x7d']
  | obj ((k, v) :: fs) =>
    [.char '\x7b'] ++ gap indent (depth + 1) ++ writeString k ++ colon
      ++ writeAt indent (depth + 1) v ++ writeFields indent (depth + 1) fs
      ++ gap indent depth ++ [.char '\x7d']

/-- Writes the items of a list after its first. -/
def writeItems (indent : Option Text) (depth : Nat) : List Json → Points
  | [] => []
  | v :: vs => comma indent depth ++ writeAt indent depth v ++ writeItems indent depth vs

/-- Writes the members of an object after its first. -/
def writeFields (indent : Option Text) (depth : Nat) : Fields → Points
  | [] => []
  | (k, v) :: fs =>
    comma indent depth ++ writeString k ++ colon ++ writeAt indent depth v
      ++ writeFields indent depth fs
end

/-- Writes a value: on one line, or with an indentation for each depth. -/
def write (indent : Option Text) (v : Json) : Points := writeAt indent 0 v

/-! ## Limits -/

mutual
/-- The first limit that a value does not keep, if there is one. -/
def limitFault? (limits : JsonLimits) : Json → Option JsonFault
  | int n =>
    let digits := (Text.ofNat n.natAbs).length
    if limits.digits.any (· < digits) then some (.longNumeral digits) else none
  | arr vs =>
    match limits.inside? with
    | none => some .tooDeep
    | some inner => itemsFault? inner vs
  | obj fs =>
    match limits.inside? with
    | none => some .tooDeep
    | some inner => fieldsFault? inner fs
  | _ => none

/-- The first limit that the items of a list do not keep. -/
def itemsFault? (limits : JsonLimits) : List Json → Option JsonFault
  | [] => none
  | v :: vs => (limitFault? limits v).or (itemsFault? limits vs)

/-- The first limit that the members of an object do not keep. -/
def fieldsFault? (limits : JsonLimits) : Fields → Option JsonFault
  | [] => none
  | (_, v) :: fs => (limitFault? limits v).or (fieldsFault? limits fs)
end

/-- Writes a value that keeps the limits. -/
def writeWithin (limits : JsonLimits) (indent : Option Text) (v : Json) :
    Except JsonFault Points :=
  match v.limitFault? limits with
  | some fault => .error fault
  | none => .ok (write indent v)

end SymbolGraph.Json
