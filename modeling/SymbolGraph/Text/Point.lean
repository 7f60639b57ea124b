import SymbolGraph.Text.Printable
set_option autoImplicit false

/-!
# Strings of code points

A string that comes from outside may have halves of surrogate pairs in it, which are code points
but no characters. A name of a file or an argument has them where its bytes are no UTF-8: each
such byte is one of the halves from `U+DC80` on. Such a string is a list of points, each a
character or a half. Every text is a string (`Text.points`), and a string without halves is a
text (`Points.text?`). Strings are ordered by code, as texts are (`less_points`).
-/

namespace SymbolGraph

/-- A code point: a character, or half of a surrogate pair. -/
inductive Point
  | char (c : Char)
  /-- The half `U+D800 + n`. -/
  | half (n : Fin 0x800)
  deriving DecidableEq, Repr

/-- A string is the list of its code points. -/
abbrev Points := List Point

namespace Point

/-- The code of a point. -/
def code : Point → Nat
  | char c => c.toNat
  | half n => 0xD800 + n.val

/-- The character that a point is. -/
def char? : Point → Option Char
  | char c => some c
  | half _ => none

/-- Whether `p` holds of a point, which it does of no half. -/
def holds (p : Char → Bool) (x : Point) : Bool := x.char?.any p

/-- The point with a code; a code that is none counts as zero. -/
def ofCode (n : Nat) : Point :=
  if h : 0xD800 ≤ n ∧ n < 0xE000 then half ⟨n - 0xD800, by omega⟩ else char (Char.ofNat n)

/-- A point between quotes `q`, where a half is written by its code. -/
def escape (q : Char) : Point → Text
  | char c => Text.escapeChar q c
  | half n => "\\u".toList ++ Text.hex 4 (half n).code

/-- Points are ordered by code. -/
instance : LE Point := ⟨fun p q => p.code ≤ q.code⟩

instance : LT Point := ⟨fun p q => p.code < q.code⟩

instance (p q : Point) : Decidable (p < q) := inferInstanceAs (Decidable (p.code < q.code))

/-- No character has the code of a half. -/
theorem code_inj {p q : Point} (hcode : p.code = q.code) : p = q := by
  have hplain : ∀ (c : Char) (n : Fin 0x800), c.toNat ≠ 0xD800 + n.val := by
    intro c n hc
    have hvalid := c.valid
    simp only [UInt32.isValidChar, Nat.isValidChar, Char.toNat] at hvalid hc
    omega
  cases p with
  | char c =>
      cases q with
      | char d => exact congrArg Point.char (Char.toNat_inj.mp hcode)
      | half n => exact absurd hcode (hplain c n)
  | half m =>
      cases q with
      | char d => exact absurd hcode.symm (hplain d m)
      | half n => exact congrArg Point.half (Fin.ext (Nat.add_left_cancel hcode))

instance : Std.IsLinearOrder Point where
  le_refl p := Nat.le_refl p.code
  le_trans _ _ _ := Nat.le_trans
  le_antisymm _ _ hpq hqp := code_inj (Nat.le_antisymm hpq hqp)
  le_total p q := Nat.le_total p.code q.code

instance : Std.LawfulOrderLT Point where
  lt_iff _ _ := Nat.lt_iff_le_and_not_ge

/-- A half is read back from its code. -/
@[simp] theorem ofCode_half (n : Fin 0x800) : ofCode (half n).code = half n := by
  have bounds : 0xD800 ≤ (half n).code ∧ (half n).code < 0xE000 := by
    simp only [code]
    omega
  rw [ofCode, dif_pos bounds]
  simp [code]

end Point

/-- A text as a string. -/
def Text.points (t : Text) : Points := t.map .char

namespace Points

/-- The string that a literal is. -/
def ofString (s : String) : Points := Text.points s.toList

/-- The text that a string is, if it has no half. -/
def text? (s : Points) : Option Text := s.mapM Point.char?

/-- What follows a text at the start of a string, if the string starts with it. -/
def dropHead? : (head : Text) → Points → Option Points
  | [], s => some s
  | c :: t, .char d :: s => if c = d then dropHead? t s else none
  | _, _ => none

/-- The characters of a string, with the replacement character for its halves. -/
def shown (s : Points) : Text := s.map fun p => p.char?.getD '\ufffd'

/-- The string between quotes, as messages show it. -/
def quoted (s : Points) : Text :=
  let q := Text.quoteFor s.shown
  q :: s.flatMap (Point.escape q) ++ [q]

/-- One string comes before another in the order of codes. -/
def less : Points → Points → Bool
  | _, [] => false
  | [], _ :: _ => true
  | p :: s, q :: t => if p = q then less s t else p.code < q.code

/-- A text is read back from its string. -/
@[simp] theorem text?_points (t : Text) : text? t.points = some t := by
  induction t with
  | nil => rfl
  | cons c t ih =>
    simp only [Text.points, text?] at ih
    simp [Text.points, text?, List.mapM_cons, Point.char?, ih]

/-- A string that is a text is the string of that text. -/
theorem eq_points_of_text? {s : Points} {t : Text} (h : s.text? = some t) : s = t.points := by
  induction s generalizing t with
  | nil =>
    cases h
    rfl
  | cons p s ih =>
    simp only [text?, List.mapM_cons, Option.bind_eq_bind, Option.bind_eq_some_iff,
      Option.pure_def, Option.some.injEq] at h ih
    obtain ⟨c, hc, t', ht', rfl⟩ := h
    cases p with
    | char d =>
      obtain rfl := Option.some.inj hc
      rw [ih ht']
      rfl
    | half n => cases hc

/-- The characters of a text are those of its string. -/
@[simp] theorem shown_points (t : Text) : shown t.points = t := by
  simp [shown, Text.points, Function.comp_def, Point.char?]

/-- Different texts are different strings. -/
theorem points_inj {s t : Text} : s.points = t.points ↔ s = t := by
  refine ⟨fun h => ?_, fun h => h ▸ rfl⟩
  have read := congrArg text? h
  simpa using read

/-- Texts are ordered as the strings that they are. -/
theorem less_points (s t : Text) : less s.points t.points = decide (s < t) := by
  induction s generalizing t with
  | nil => cases t <;> simp [Text.points, less]
  | cons c s ih =>
    cases t with
    | nil => simp [Text.points, less]
    | cons d t =>
      by_cases h : c = d
      · subst h
        have tail := ih t
        simp only [Text.points] at tail
        simp [Text.points, less, tail]
      · have first : c.toNat < d.toNat ↔ c < d := Iff.rfl
        simp [Text.points, less, h, Point.code, List.cons_lt_cons_iff, first]

end Points

end SymbolGraph
