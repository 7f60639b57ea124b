import SymbolGraph.Text.Point
set_option autoImplicit false

/-!
# Strings spelled as texts

A string is spelled as a text by two characters for each half: a mark, and one that tells the
half. The mark itself, a character that no script uses, is spelled by two characters as well. A
spelling is read back (`unspelled_spelled`), what is put together is spelled part by part, and
the order of strings is that of their spellings (`spelled_lt_spelled`). So what is done to texts
by comparing, cutting and joining them can be done to strings (`Points.lift`).
-/

namespace SymbolGraph

/-! ## Spelling -/

/-- The character that starts the spelling of a half. All halves come before it, and all
characters that come before it come before the halves. -/
def spellMark : Char := '\ue000'

/-- The character behind the mark that tells a half. -/
def halfLetter (n : Fin 0x800) : Char := Char.ofNat (0xE001 + n.val)

/-- The character behind the mark that tells the mark itself; it comes after those for
halves. -/
def markLetter : Char := '\ue801'

/-- The spelling of a point. -/
def Point.spelled : Point → Text
  | char c => if c = spellMark then [spellMark, markLetter] else [c]
  | half n => [spellMark, halfLetter n]

/-- The point that is spelled by the mark and a character. -/
def Point.ofLetter (c : Char) : Point :=
  if h : 0xE001 ≤ c.toNat ∧ c.toNat < 0xE801 then half ⟨c.toNat - 0xE001, by omega⟩
  else char spellMark

/-- The spelling of a string. -/
def Points.spelled (s : Points) : Text := s.flatMap Point.spelled

/-- The string that is spelled by a text. -/
def Text.unspelled : Text → Points
  | [] => []
  | [c] => [.char c]
  | c :: d :: t =>
    if c = spellMark then Point.ofLetter d :: unspelled t else .char c :: unspelled (d :: t)

/-- Does to a string what is done to texts. A string with halves is spelled for it. -/
def Points.lift (f : Text → Text) (s : Points) : Points :=
  match s.text? with
  | some t => (f t).points
  | none => (f s.spelled).unspelled

/-- What is done to a text as a string is what is done to it as a text. -/
@[simp] theorem Points.lift_points (f : Text → Text) (t : Text) :
    t.points.lift f = (f t).points := by
  simp [lift]

/-! ## Reading a spelling back -/

theorem toNat_halfLetter (n : Fin 0x800) : (halfLetter n).toNat = 0xE001 + n.val := by
  have hvalid : (0xE001 + n.val).isValidChar := by
    simp only [Nat.isValidChar]
    omega
  rw [halfLetter, Char.ofNat, dif_pos hvalid]
  rfl

theorem Point.ofLetter_halfLetter (n : Fin 0x800) : ofLetter (halfLetter n) = half n := by
  have bounds : 0xE001 ≤ (halfLetter n).toNat ∧ (halfLetter n).toNat < 0xE801 := by
    rw [toNat_halfLetter]
    omega
  rw [ofLetter, dif_pos bounds]
  simp [toNat_halfLetter]

theorem Text.unspelled_cons {c : Char} (hc : c ≠ spellMark) (t : Text) :
    unspelled (c :: t) = .char c :: unspelled t := by
  cases t with
  | nil => rfl
  | cons d t => rw [unspelled, if_neg hc]

namespace Points

theorem spelled_cons (p : Point) (s : Points) : spelled (p :: s) = p.spelled ++ spelled s := rfl

/-- A string is read back from its spelling. -/
theorem unspelled_spelled (s : Points) : s.spelled.unspelled = s := by
  induction s with
  | nil => rfl
  | cons p s ih =>
    rw [spelled_cons]
    cases p with
    | half n =>
      simp only [Point.spelled, List.cons_append, List.nil_append, Text.unspelled, if_true]
      rw [Point.ofLetter_halfLetter, ih]
    | char c =>
      by_cases hc : c = spellMark
      · subst hc
        simp only [Point.spelled, if_true, List.cons_append, List.nil_append, Text.unspelled]
        rw [ih]
        rfl
      · rw [Point.spelled, if_neg hc, List.singleton_append, Text.unspelled_cons hc, ih]

/-! ## The order of spellings -/

/-- Where points differ, the spellings of the strings differ in the same order. -/
theorem spelled_append_lt {p q : Point} (hlt : p < q) (t u : Text) :
    p.spelled ++ t < q.spelled ++ u := by
  have hplain (c : Char) : c.toNat < 0xD800 ∨ 0xE000 ≤ c.toNat := by
    have hvalid := c.valid
    simp only [UInt32.isValidChar, Nat.isValidChar, Char.toNat] at hvalid ⊢
    omega
  have hfirst {c d : Char} (h : c.toNat < d.toNat) (t u : Text) : c :: t < d :: u :=
    List.cons_lt_cons_iff.mpr (.inl h)
  have hsecond {c d : Char} (h : c.toNat < d.toNat) (t u : Text) :
      spellMark :: c :: t < spellMark :: d :: u :=
    List.cons_lt_cons_iff.mpr (.inr ⟨rfl, hfirst h t u⟩)
  have hmark : spellMark.toNat = 0xE000 := rfl
  have hne {c : Char} (h : c ≠ spellMark) : c.toNat ≠ 0xE000 := fun heq =>
    h (Char.toNat_inj.mp (heq.trans hmark.symm))
  change p.code < q.code at hlt
  cases p with
  | half m =>
    cases q with
    | half n =>
      simp only [Point.code] at hlt
      refine hsecond ?_ t u
      rw [toNat_halfLetter, toNat_halfLetter]
      omega
    | char d =>
      simp only [Point.code, Point.spelled] at hlt ⊢
      split
      · refine hsecond ?_ t u
        rw [toNat_halfLetter]
        exact Nat.add_lt_add_left m.isLt 0xE001
      · next hd =>
        refine hfirst ?_ _ u
        have := hne hd
        have := hplain d
        omega
  | char c =>
    cases q with
    | half n =>
      simp only [Point.code, Point.spelled] at hlt ⊢
      have := hplain c
      rw [if_neg (by rintro rfl; omega)]
      exact hfirst (by omega) t _
    | char d =>
      simp only [Point.code, Point.spelled] at hlt ⊢
      split
      · next hc =>
        subst hc
        rw [if_neg (by rintro rfl; omega)]
        exact hfirst hlt _ u
      · split
        · next hd =>
          subst hd
          exact hfirst hlt t _
        · exact hfirst hlt t u

theorem spelled_lt_of_lt {s t : Points} (hlt : s < t) : s.spelled < t.spelled := by
  induction s generalizing t with
  | nil =>
    cases t with
    | nil => cases hlt
    | cons q t =>
      have hne : spelled (q :: t) ≠ [] := by
        cases q with
        | half n => exact List.cons_ne_nil _ _
        | char c =>
          rw [spelled_cons, Point.spelled]
          split <;> exact List.cons_ne_nil _ _
      obtain ⟨c, u, hu⟩ := List.exists_cons_of_ne_nil hne
      rw [hu]
      exact List.nil_lt_cons c u
  | cons p s ih =>
    cases t with
    | nil => cases hlt
    | cons q t =>
      rw [spelled_cons, spelled_cons]
      rcases List.cons_lt_cons_iff.mp hlt with hpq | ⟨rfl, hst⟩
      · exact spelled_append_lt hpq _ _
      · exact List.append_left_lt (ih hst)

/-- Strings are ordered as their spellings. -/
theorem spelled_lt_spelled {s t : Points} : s.spelled < t.spelled ↔ s < t := by
  refine ⟨fun hlt => Decidable.byContradiction fun hnot => ?_, spelled_lt_of_lt⟩
  rcases List.le_iff_lt_or_eq.mp hnot with hts | rfl
  · exact List.lt_asymm hlt (spelled_lt_of_lt hts)
  · exact List.lt_irrefl _ hlt

end Points

end SymbolGraph
