set_option autoImplicit false

/-!
# Texts

A text is the list of its code points, so that lengths, columns, cuts and the order of texts all
count code points. This module holds the cuts and joins that the rest of the library is written
with, and what they need to know of characters: which of them end lines and which are blanks.
Cuts that look for nothing but an item are made of lists of any items.
-/

namespace SymbolGraph

/-- A text is the list of its code points. -/
abbrev Text := List Char

namespace Text

variable {α : Type} [DecidableEq α]

/-! ## Prefixes -/

/-- What follows `head` at the start of a list, if the list starts with it. -/
def dropHead? : (head items : List α) → Option (List α)
  | [], t => some t
  | _ :: _, [] => none
  | h :: hs, c :: cs => if h = c then dropHead? hs cs else none

/-- What precedes `tail` at the end of a list, if the list ends with it. -/
def dropTail? (tail items : List α) : Option (List α) :=
  (dropHead? tail.reverse items.reverse).map List.reverse

/-- The list around the first occurrence of `mark`. -/
def breakOn? (mark : List α) : List α → Option (List α × List α)
  | [] => if mark = [] then some ([], []) else none
  | c :: cs =>
    match dropHead? mark (c :: cs) with
    | some rest => some ([], rest)
    | none => (breakOn? mark cs).map fun (before, rest) => (c :: before, rest)

/-- The first `n` code points; a negative `n` leaves out that many at the end. -/
def upTo (n : Int) (t : Text) : Text :=
  if 0 ≤ n then t.take n.toNat else t.take (t.length - n.natAbs)

/-! ## Separators -/

/-- Puts an item at the front of the first part. -/
def consFirst {β : Type} (c : β) : List (List β) → List (List β)
  | [] => [[c]]
  | part :: parts => (c :: part) :: parts

/-- The parts of a list between separators; a list without separator is one part. -/
def split (separator : α) : List α → List (List α)
  | [] => [[]]
  | c :: cs =>
    if c = separator then [] :: split separator cs else consFirst c (split separator cs)

/-- The parts of a list with `glue` between them. -/
def join {β : Type} (glue : List β) : List (List β) → List β
  | [] => []
  | [part] => part
  | part :: parts => part ++ glue ++ join glue parts

/-- Replaces every occurrence of one code point by another. -/
def replaceChar (old new : Char) (t : Text) : Text :=
  t.map fun c => if c = old then new else c

/-- Removes the code points of one class from both ends. -/
def trimBy (p : Char → Bool) (t : Text) : Text :=
  ((t.dropWhile p).reverse.dropWhile p).reverse

/-- The part of a dotted name before its first dot. -/
def firstSegment (name : Text) : Text := name.takeWhile (· ≠ '.')

/-- The part of a dotted name behind its last dot. -/
def lastSegment (name : Text) : Text := (name.reverse.takeWhile (· ≠ '.')).reverse

/-! ## Lines

Three line ends are in use: a line feed, a carriage return, and the two together. A text is
normalised to line feeds before it is cut into lines. -/

/-- Every line end becomes one line feed. -/
def normalizeNewlines : Text → Text
  | [] => []
  | '\r' :: '\n' :: rest => '\n' :: normalizeNewlines rest
  | c :: rest => (if c = '\r' then '\n' else c) :: normalizeNewlines rest

/-- The lines of a text, without their line ends; an empty text is one empty line. -/
def lines (t : Text) : List Text := split '\n' (normalizeNewlines t)

/-- Lines put together with line feeds between them. -/
def unlines (ls : List Text) : Text := join ['\n'] ls

/-! ## Blanks

A character property is a table of inclusive ranges of code points. A blank is a character that
separates words: the ASCII controls from tab to carriage return and from file separator to unit
separator, the space, and the space characters of other scripts. The zero-width space and the
byte order mark are no blanks. -/

/-- The character's code point lies in one of the ranges, ends included. -/
def inRanges (ranges : List (Nat × Nat)) (c : Char) : Bool :=
  ranges.any fun r => r.1 ≤ c.toNat && c.toNat ≤ r.2

/-- The blanks. -/
def spaceRanges : List (Nat × Nat) :=
  [(0x9, 0xD), (0x1C, 0x20), (0x85, 0x85), (0xA0, 0xA0), (0x1680, 0x1680), (0x2000, 0x200A),
   (0x2028, 0x2029), (0x202F, 0x202F), (0x205F, 0x205F), (0x3000, 0x3000)]

/-- The character is a blank. -/
def isSpace (c : Char) : Bool := inRanges spaceRanges c

/-- The character may stand in the indentation of a line: a space or a tab. -/
def isIndent (c : Char) : Bool := c == ' ' || c == '\t'

/-- Removes blanks from the front. -/
def trimLeft (t : Text) : Text := t.dropWhile isSpace

/-- Removes blanks from both ends. -/
def trim (t : Text) : Text := trimBy isSpace t

/-- The trimmed parts of a list written with commas, without the empty ones. -/
def commaList (t : Text) : List Text := ((split ',' t).map trim).filter (· ≠ [])

/-! ## Order -/

/-- Order by the first items that differ: for texts, by code points. -/
def le [LT α] [DecidableLT α] (a b : List α) : Bool := ! decide (b < a)

/-- A decimal numeral. -/
def ofNat (n : Nat) : Text := (Nat.repr n).toList

/-- A decimal numeral with a minus sign when negative. -/
def ofInt : Int → Text
  | .ofNat n => ofNat n
  | .negSucc n => '-' :: ofNat (n + 1)

/-! ## Laws -/

@[simp] theorem split_nil (s : α) : split s [] = [[]] := rfl

theorem split_ne_nil (s : α) (t : List α) : split s t ≠ [] := by
  induction t with
  | nil => simp [split]
  | cons c cs ih =>
    unfold split
    split
    · simp
    · cases h : split s cs <;> simp [consFirst]

/-- The separators put back between the parts give the list. -/
theorem join_split (s : α) (t : List α) : join [s] (split s t) = t := by
  induction t with
  | nil => rfl
  | cons c cs ih =>
    unfold split
    cases h : split s cs with
    | nil => exact absurd h (split_ne_nil s cs)
    | cons part parts =>
      rw [h] at ih
      split
      · next hc => simp [join, ih, hc]
      · cases parts <;> simp_all [join, consFirst]

/-- Cutting into lines loses nothing but the kind of line end. -/
theorem unlines_lines (t : Text) : unlines (lines t) = normalizeNewlines t :=
  join_split '\n' (normalizeNewlines t)

end Text

end SymbolGraph
