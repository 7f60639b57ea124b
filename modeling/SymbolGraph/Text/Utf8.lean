import SymbolGraph.Text.Point
set_option autoImplicit false

/-!
# Texts as bytes

A text is stored as UTF-8. Bytes are read strictly, where a malformed sequence is a failure, or
leniently, where the bytes that begin no character are left out. A string with halves has no
UTF-8, but a name of a file may have them, each for one byte.
-/

namespace SymbolGraph

/-- The bytes of a text. -/
def Text.toBytes (t : Text) : List UInt8 := t.flatMap String.utf8EncodeChar

/-! ## Strings -/

/-- Why a string has no UTF-8: its first halves. -/
structure EncodeFault where
  /-- The number of characters before them. -/
  position : Nat
  /-- The halves that lie there one behind the other. -/
  halves : Points
  deriving DecidableEq, Repr

/-- The text of a fault. -/
def EncodeFault.message (f : EncodeFault) : Text :=
  let place : Text :=
    match f.halves with
    | [p] =>
      "character '".toList ++ p.escape '"' ++ "' in position ".toList ++ Text.ofNat f.position
    | halves =>
      "characters in position ".toList ++ Text.ofNat f.position ++ "-".toList
        ++ Text.ofNat (f.position + halves.length - 1)
  "'utf-8' codec can't encode ".toList ++ place ++ ": surrogates not allowed".toList

/-- The text that a string is, which UTF-8 can write. -/
def Points.encode (s : Points) : Except EncodeFault Text :=
  match s.text? with
  | some t => .ok t
  | none =>
    let (before, rest) := s.span (·.char?.isSome)
    .error { position := before.length, halves := rest.takeWhile (·.char?.isNone) }

/-- The strings that UTF-8 can write are the texts. -/
theorem Points.encode_eq_ok_iff {s : Points} {t : Text} : s.encode = .ok t ↔ s = t.points := by
  constructor
  · intro h
    rw [encode] at h
    split at h
    · next t' ht' =>
      obtain rfl := Except.ok.inj h
      exact eq_points_of_text? ht'
    · cases h
  · rintro rfl
    simp [encode]

/-- The bytes of a point in a name of a file. The halves `U+DC80` to `U+DCFF`, the only ones
that names have, are the bytes `0x80` to `0xFF`. -/
def Point.toBytes : Point → List UInt8
  | char c => String.utf8EncodeChar c
  | half n => [UInt8.ofNat n.val]

/-- The bytes of a name of a file. -/
def Points.toBytes (s : Points) : List UInt8 := s.flatMap Point.toBytes

/-- A text has the same bytes as a name. -/
@[simp] theorem Points.toBytes_points (t : Text) : t.points.toBytes = t.toBytes := by
  simp only [Points.toBytes, Text.points, List.flatMap_map, Text.toBytes]
  rfl

/-! ## Bytes -/

namespace Utf8

/-- A byte that continues a character. -/
def isTail (b : UInt8) : Bool := 0x80 ≤ b && b ≤ 0xBF

/-- The six bits that a continuing byte carries. -/
def tailBits (b : UInt8) : Nat := b.toNat % 64

/-- The second bytes that may follow a first byte of a sequence of three or four: neither longer
than needed, nor a surrogate, nor past the last code point. -/
def isSecond (first second : UInt8) : Bool :=
  isTail second &&
    !(first == 0xE0 && second < 0xA0) && !(first == 0xED && second > 0x9F) &&
    !(first == 0xF0 && second < 0x90) && !(first == 0xF4 && second > 0x8F)

/-- The character that a first byte begins, and the number of bytes after it that belong to
it. -/
def char? (a : UInt8) (rest : List UInt8) : Option (Char × Nat) :=
  if a < 0x80 then some (Char.ofNat a.toNat, 0)
  else if 0xC2 ≤ a && a ≤ 0xDF then
    match rest with
    | b :: _ =>
      if isTail b then some (Char.ofNat (a.toNat % 32 * 64 + tailBits b), 1) else none
    | _ => none
  else if 0xE0 ≤ a && a ≤ 0xEF then
    match rest with
    | b :: c :: _ =>
      if isSecond a b && isTail c then
        some (Char.ofNat ((a.toNat % 16 * 64 + tailBits b) * 64 + tailBits c), 2)
      else none
    | _ => none
  else if 0xF0 ≤ a && a ≤ 0xF4 then
    match rest with
    | b :: c :: d :: _ =>
      if isSecond a b && isTail c && isTail d then
        let high := (a.toNat % 8 * 64 + tailBits b) * 64 + tailBits c
        some (Char.ofNat (high * 64 + tailBits d), 3)
      else none
    | _ => none
  else none

/-- Reads bytes strictly. -/
def decode? : List UInt8 → Option Text
  | [] => some []
  | a :: rest =>
    match char? a rest with
    | none => none
    | some (c, n) => (decode? (rest.drop n)).map (c :: ·)
  termination_by bytes => bytes.length
  decreasing_by simp only [List.length_drop, List.length_cons]; omega

/-- Reads bytes leniently. -/
def decode : List UInt8 → Text
  | [] => []
  | a :: rest =>
    match char? a rest with
    | none => decode rest
    | some (c, n) => c :: decode (rest.drop n)
  termination_by bytes => bytes.length
  decreasing_by all_goals simp only [List.length_drop, List.length_cons]; omega

end Utf8

end SymbolGraph
