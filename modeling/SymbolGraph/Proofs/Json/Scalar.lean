import SymbolGraph.Json.Reader
import SymbolGraph.Json.Writer
import SymbolGraph.Proofs.Text.Separator
set_option autoImplicit false

/-!
# Written strings and integers are read back

A written string is read up to its closing quote and no further, whatever its points are and
whatever stands behind it. An integer is read back from its numeral if what stands behind it
does not go on with the number, which nothing does that the writer puts there (`Ends`).
-/

namespace SymbolGraph

/-- The limits of a reader allow an integer. -/
def JsonLimits.Allows (limits : JsonLimits) (n : Int) : Prop :=
  ∀ most ∈ limits.digits, (Text.ofNat n.natAbs).length ≤ most

namespace Json

/-! ## Strings -/

/-- The character is written by its code. -/
def isCoded (c : Char) : Bool :=
  decide (c.toNat < 0x20) && ! ['\n', '\r', '\t', '\x08', '\x0c'].contains c

/-- The piece as which a written point is read. -/
def pieceOf : Point → Piece
  | .char c => if isCoded c then .unit c.toNat else .point (.char c)
  | .half n => .point (.half n)

/-- The number that four hexadecimal digits denote. -/
def code? : Text → Option Nat
  | [a, b, c, d] => hexCode? a b c d
  | _ => none

/-- The code of a control is read back from its digits. -/
theorem code?_hex : ∀ n < 0x20, code? (Text.hex 4 n) = some n := by decide +kernel

/-- A code is read as a unit. -/
theorem readPieces_code {t : Text} {n : Nat} (ht : code? t = some n) (rest : Points) :
    readPieces (Text.points ('\\' :: 'u' :: t) ++ rest) =
      (readPieces rest).map fun (pieces, after) => (.unit n :: pieces, after) := by
  unfold code? at ht
  split at ht
  · simp [Text.points, readPieces, ht]
  · exact absurd ht.symm (Option.some_ne_none n)

/-- A written point is read as one piece. -/
theorem readPieces_writePoint (p : Point) (rest : Points) :
    readPieces (writePoint p ++ rest) =
      (readPieces rest).map fun (pieces, after) => (pieceOf p :: pieces, after) := by
  cases p with
  | half n => rfl
  | char c =>
      rw [writePoint, writeChar]
      -- seven characters have an escape of their own
      iterate 7
        split
        · next h => subst h; rfl
      split
      · next hcode =>
        have hcoded : isCoded c = true := by simp_all [isCoded]
        rw [pieceOf, if_pos hcoded]
        exact readPieces_code (code?_hex c.toNat hcode) rest
      · next hquote hslash _ _ _ _ _ hcode =>
        have hcoded : isCoded c = false := by simp [isCoded, hcode]
        rw [pieceOf, if_neg (Bool.eq_false_iff.mp hcoded), Text.points, List.map_cons,
          List.map_nil, List.singleton_append, readPieces.eq_def]
        simp only [if_neg hquote, if_neg hslash, if_neg hcode]

theorem readPieces_written (s rest : Points) :
    readPieces (s.flatMap writePoint ++ .char '"' :: rest) = some (s.map pieceOf, rest) := by
  induction s with
  | nil =>
      rw [List.flatMap_nil, List.nil_append, readPieces.eq_def]
      rfl
  | cons p s ih =>
      rw [List.flatMap_cons, List.append_assoc, readPieces_writePoint, ih]
      rfl

/-- A unit that opens no pair stands for itself. -/
theorem ofPieces_unit {n : Nat} (hn : isHighUnit n = false) (pieces : List Piece) :
    ofPieces (.unit n :: pieces) = .ofCode n :: ofPieces pieces := by
  cases pieces with
  | nil => rfl
  | cons piece pieces =>
      cases piece with
      | point p => rfl
      | unit m => simp [ofPieces, hn]

theorem ofPieces_map_pieceOf (s : Points) : ofPieces (s.map pieceOf) = s := by
  induction s with
  | nil => rfl
  | cons p s ih =>
      cases p with
      | half n => rw [List.map_cons, pieceOf, ofPieces, ih]
      | char c =>
          rw [List.map_cons, pieceOf]
          split
          · next hcoded =>
            have hcode : c.toNat < 0x20 := by simp_all [isCoded]
            have hhigh : isHighUnit c.toNat = false := by
              simp only [isHighUnit, Bool.and_eq_false_iff, decide_eq_false_iff_not]
              omega
            have hpoint : Point.ofCode c.toNat = .char c := by
              rw [Point.ofCode, dif_neg (by omega), Char.ofNat_toNat]
            rw [ofPieces_unit hhigh, hpoint, ih]
          · rw [ofPieces, ih]

/-- A written string is read back. -/
theorem readString_written (s rest : Points) :
    readString (s.flatMap writePoint ++ .char '"' :: rest) = .ok (s, rest) := by
  simp only [readString, readPieces_written, ofPieces_map_pieceOf]

/-! ## Integers -/

/-- A string does not go on with a number. -/
def Ends (s : Points) : Prop :=
  ∀ p ∈ s.head?, p = .char ',' ∨ p = .char ']' ∨ p = .char '\x7d' ∨ p = .char '\n'

theorem Ends.not_isDigit {rest : Points} (hrest : Ends rest) :
    ∀ p ∈ rest.head?, p.holds Char.isDigit = false := by
  intro p hp
  obtain rfl | rfl | rfl | rfl := hrest p hp <;> rfl

theorem readDigits_append {ds : Text} (hds : ∀ c ∈ ds, c.isDigit = true) {rest : Points}
    (hrest : Ends rest) : readDigits (ds.points ++ rest) = (ds, rest) := by
  induction ds with
  | nil =>
      cases rest with
      | nil => rfl
      | cons p rest => simp [readDigits, Text.points, hrest.not_isDigit p rfl]
  | cons c ds ih =>
      have hrun := ih fun d hd => hds d (List.mem_cons_of_mem c hd)
      have hc : (Point.char c).holds Char.isDigit = true := hds c List.mem_cons_self
      simp only [readDigits, Text.points, List.map_cons, List.cons_append,
        List.takeWhile_cons, hc, List.dropWhile_cons, ↓reduceIte, List.filterMap_cons,
        Point.char?, Prod.mk.injEq] at hrun ⊢
      exact ⟨congrArg (c :: ·) hrun.1, hrun.2⟩

/-- A numeral starts with a digit. -/
theorem exists_digit_cons (n : Nat) : ∃ d t, Text.ofNat n = d :: t ∧ d.isDigit = true := by
  have hne : Text.ofNat n ≠ [] := by
    rw [Text.ofNat, Nat.toList_repr]
    exact Nat.toDigits_ne_nil
  obtain ⟨d, t, ht⟩ := List.exists_cons_of_ne_nil hne
  exact ⟨d, t, ht, Text.isDigit_of_mem_ofNat (n := n) (ht ▸ List.mem_cons_self)⟩

/-- The numeral of an integer starts with a digit or a minus. -/
theorem exists_ofInt_cons (n : Int) :
    ∃ c t, Text.ofInt n = c :: t ∧ ∀ d, d.isDigit = false → d ≠ '-' → c ≠ d := by
  cases n with
  | ofNat n =>
      obtain ⟨c, t, ht, hc⟩ := exists_digit_cons n
      refine ⟨c, t, ht, ?_⟩
      rintro d hd - rfl
      exact Bool.false_ne_true (hd.symm.trans hc)
  | negSucc n => exact ⟨'-', _, rfl, fun d _ hminus => Ne.symm hminus⟩

/-- A numeral starts with a zero only if it is zero. -/
theorem ofNat_eq_cons_zero {n : Nat} {t : Text} (hn : Text.ofNat n = '0' :: t) :
    n = 0 ∧ t = [] := by
  rw [Text.ofNat, Nat.toList_repr] at hn
  induction n using Nat.strongRecOn generalizing t with
  | ind n ih =>
      by_cases hsmall : n < 10
      · have hdigit : ∀ d < 10, Nat.digitChar d = '0' → d = 0 := by decide
        rw [Nat.toDigits_of_lt_base hsmall, List.cons.injEq] at hn
        exact ⟨hdigit n hsmall hn.1, hn.2.symm⟩
      · -- the first digit is that of the tenth part, which is not zero
        rw [Nat.toDigits_of_base_le (by omega) (by omega)] at hn
        obtain ⟨d, ds, hds⟩ :=
          List.exists_cons_of_ne_nil (Nat.toDigits_ne_nil (n := n / 10) (b := 10))
        rw [hds, List.cons_append, List.cons.injEq] at hn
        have hzero := (ih (n / 10) (by omega) (hds.trans (congrArg (· :: ds) hn.1))).1
        omega

/-- The digits of a natural number are read back as a whole part. -/
theorem readWhole_ofNat (n : Nat) {rest : Points} (hrest : Ends rest) :
    readWhole ((Text.ofNat n).points ++ rest) = some (Text.ofNat n, rest) := by
  have hdigits := readDigits_append (fun c hc => Text.isDigit_of_mem_ofNat (n := n) hc) hrest
  obtain ⟨d, ds, ht, -⟩ := exists_digit_cons n
  rw [ht] at hdigits ⊢
  by_cases hzero : d = '0'
  · subst hzero
    rw [(ofNat_eq_cons_zero ht).2]
    rfl
  · unfold readWhole
    split
    · next heq =>
      exact absurd (Point.char.inj (List.cons.inj heq).1) hzero
    · rw [hdigits]

theorem readFraction_of_ends {rest : Points} (hrest : Ends rest) :
    readFraction rest = ([], rest) := by
  cases rest with
  | nil => rfl
  | cons p rest => obtain rfl | rfl | rfl | rfl := hrest p rfl <;> rfl

theorem readExponent_of_ends {rest : Points} (hrest : Ends rest) :
    readExponent rest = (none, rest) := by
  cases rest with
  | nil => rfl
  | cons p rest => obtain rfl | rfl | rfl | rfl := hrest p rfl <;> rfl

theorem digitsValue_ofNat (n : Nat) : digitsValue (Text.ofNat n) = n := by
  rw [Text.ofNat, Nat.toList_repr]
  exact Nat.ofDigitChars_ten_toDigits

theorem readMagnitude_ofNat {limits : JsonLimits} {n : Nat} (hn : limits.Allows n)
    (negative : Bool) {rest : Points} (hrest : Ends rest) :
    readMagnitude limits negative ((Text.ofNat n).points ++ rest) =
      .ok (.int (if negative then -n else n), rest) := by
  have hfits : limits.digits.any (fun most => decide (most < (Text.ofNat n).length)) =
      false := by
    cases hmost : limits.digits with
    | none => rfl
    | some most => exact decide_eq_false (Nat.not_lt.mpr (hn most hmost))
  simp only [readMagnitude, readWhole_ofNat n hrest, readFraction_of_ends hrest,
    readExponent_of_ends hrest, and_self, ↓reduceIte, hfits, Bool.false_eq_true,
    digitsValue_ofNat]

/-- No word starts with a digit, or with a minus and a digit. -/
theorem readWord?_digit {d : Char} (hd : d.isDigit = true) (s : Points) :
    readWord? (.char d :: s) = none ∧ readWord? (.char '-' :: .char d :: s) = none := by
  have hne : ∀ c : Char, c.isDigit = false → c ≠ d := by
    rintro c hc rfl
    exact Bool.false_ne_true (hc.symm.trans hd)
  constructor
  · simp [readWord?, words, Points.dropHead?, hne 'n' rfl, hne 't' rfl, hne 'f' rfl,
      hne 'N' rfl, hne 'I' rfl, hne '-' rfl]
  · simp [readWord?, words, Points.dropHead?, hne 'I' rfl]

theorem readScalar_digit (limits : JsonLimits) {d : Char} (hd : d.isDigit = true) (s : Points) :
    readScalar limits (.char d :: s) = readMagnitude limits false (.char d :: s) := by
  have hminus : d ≠ '-' := by
    rintro rfl
    exact absurd hd (by decide)
  rw [readScalar.eq_def, (readWord?_digit hd s).1]
  split
  · next heq => exact absurd heq.symm (Option.some_ne_none _)
  · next heq => exact absurd (Point.char.inj (List.cons.inj heq).1) hminus
  · rfl

theorem readScalar_minus (limits : JsonLimits) {d : Char} (hd : d.isDigit = true) (s : Points) :
    readScalar limits (.char '-' :: .char d :: s) =
      readMagnitude limits true (.char d :: s) := by
  rw [readScalar.eq_def, (readWord?_digit hd s).2]
  rfl

/-- An integer is read back from its numeral. -/
theorem readScalar_ofInt {limits : JsonLimits} {n : Int} (hn : limits.Allows n) {rest : Points}
    (hrest : Ends rest) :
    readScalar limits ((Text.ofInt n).points ++ rest) = .ok (.int n, rest) := by
  cases n with
  | ofNat n =>
      have hread := readMagnitude_ofNat hn false hrest
      obtain ⟨d, t, ht, hd⟩ := exists_digit_cons n
      rw [ht] at hread
      rw [Text.ofInt, ht]
      exact (readScalar_digit limits hd _).trans hread
  | negSucc n =>
      have hread := readMagnitude_ofNat (n := n + 1) hn true hrest
      obtain ⟨d, t, ht, hd⟩ := exists_digit_cons (n + 1)
      rw [ht] at hread
      rw [Text.ofInt, ht]
      exact (readScalar_minus limits hd _).trans hread

end Json

end SymbolGraph
