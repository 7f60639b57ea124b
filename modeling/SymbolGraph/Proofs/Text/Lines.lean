import Mathlib.Data.List.DropRight
import SymbolGraph.Proofs.Text.CommaList
import SymbolGraph.Text.Basic
set_option autoImplicit false

/-!
# The lines of a text

Line ends are told apart wherever a text is cut, unless a carriage return and a line feed meet
there. A text with something visible in it is the trimmed text with blanks on either side. So
its lines are those of the trimmed text with blank lines in front and behind, and with further
blanks in front of the first line and behind the last one (`exists_lines_trim`).
-/

namespace SymbolGraph.Text

/-! ## Line ends -/

theorem normalizeNewlines_of_not_mem {t : Text} (ht : '\r' ∉ t) : normalizeNewlines t = t := by
  fun_induction normalizeNewlines t with
  | case1 => rfl
  | case2 rest ih => exact absurd List.mem_cons_self ht
  | case3 c rest _ ih =>
      rw [List.mem_cons, not_or] at ht
      rw [if_neg (Ne.symm ht.1), ih ht.2]

theorem lines_append {A B : Text} (hA : '\r' ∉ A) (hB : '\r' ∉ B) :
    lines (A ++ '\n' :: B) = lines A ++ lines B := by
  have hboth : '\r' ∉ A ++ '\n' :: B := by simp [hA, hB]
  rw [lines, lines, lines, normalizeNewlines_of_not_mem hA, normalizeNewlines_of_not_mem hB,
    normalizeNewlines_of_not_mem hboth, split_append]

/-- Line ends are told apart unless a carriage return and a line feed meet. -/
theorem normalizeNewlines_append {t u : Text} (hmeet : '\r' ∈ t.getLast? → '\n' ∉ u.head?) :
    normalizeNewlines (t ++ u) = normalizeNewlines t ++ normalizeNewlines u := by
  fun_induction normalizeNewlines t with
  | case1 => rfl
  | case2 rest ih =>
      rw [List.cons_append, List.cons_append, normalizeNewlines, ih, List.cons_append]
      exact fun hlast => hmeet (by simp_all [List.getLast?_cons])
  | case3 c rest hpair ih =>
      have hnone : ∀ later, c = '\r' → rest ++ u = '\n' :: later → False := by
        intro later hc hrest
        cases rest with
        | nil =>
            rw [List.nil_append] at hrest
            exact hmeet (by rw [hc]; rfl) (by rw [hrest]; rfl)
        | cons d rest => exact hpair rest hc (by rw [(List.cons.inj hrest).1])
      rw [List.cons_append, normalizeNewlines, ih, List.cons_append]
      · exact fun hlast => hmeet (by simp_all [List.getLast?_cons])
      · exact hnone

theorem mem_normalizeNewlines {c : Char} {t : Text} (hc : c ∈ normalizeNewlines t) :
    c = '\n' ∨ c ∈ t := by
  fun_induction normalizeNewlines t with
  | case1 => exact Or.inr hc
  | case2 rest ih =>
      rcases List.mem_cons.mp hc with hc | hc
      · exact Or.inl hc
      · exact (ih hc).imp_right fun hmem => List.mem_cons_of_mem _ (List.mem_cons_of_mem _ hmem)
  | case3 d rest hpair ih =>
      rcases List.mem_cons.mp hc with hc | hc
      · split at hc
        · exact Or.inl hc
        · exact Or.inr (hc ▸ List.mem_cons_self)
      · exact (ih hc).imp_right fun hmem => List.mem_cons_of_mem d hmem

/-! ## What is trimmed off -/

theorem exists_append_trim (t : Text) :
    ∃ front back, t = front ++ (trim t ++ back) ∧ (∀ c ∈ front, isSpace c = true) ∧
      ∀ c ∈ back, isSpace c = true := by
  refine ⟨t.takeWhile isSpace, (t.dropWhile isSpace).rtakeWhile isSpace, ?_, ?_, ?_⟩
  · have hback : trim t ++ (t.dropWhile isSpace).rtakeWhile isSpace = t.dropWhile isSpace :=
      List.rdropWhile_append_rtakeWhile
    rw [hback, List.takeWhile_append_dropWhile]
  · exact fun c hc => List.mem_takeWhile_imp hc
  · exact fun c hc => List.mem_rtakeWhile_imp hc

theorem trim_eq_nil_iff {t : Text} : trim t = [] ↔ ∀ c ∈ t, isSpace c = true := by
  constructor
  · intro hnil c hc
    obtain ⟨front, back, ht, hfront, hback⟩ := exists_append_trim t
    rw [ht, hnil, List.nil_append] at hc
    exact (List.mem_append.mp hc).elim (hfront c) (hback c)
  · intro ht
    rw [trim, trimBy, List.dropWhile_eq_nil_iff.mpr ht]
    rfl

theorem trim_ne_nil_of_mem {t : Text} {c : Char} (hc : c ∈ t) (hvisible : isSpace c = false) :
    trim t ≠ [] :=
  fun hnil => absurd (hvisible.symm.trans (trim_eq_nil_iff.mp hnil c hc)) Bool.false_ne_true

theorem head?_trim (t : Text) : ∀ c ∈ (trim t).head?, isSpace c = false := by
  intro c hc
  obtain ⟨back, hback⟩ : trim t <+: t.dropWhile isSpace := List.rdropWhile_prefix isSpace _
  have hne : trim t ≠ [] := by
    intro hnil
    rw [hnil] at hc
    cases hc
  have hhead := List.head?_dropWhile_not isSpace t
  rw [← hback, List.head?_append_of_ne_nil _ hne, hc] at hhead
  exact hhead

theorem getLast?_trim (t : Text) : ∀ c ∈ (trim t).getLast?, isSpace c = false := by
  intro c hc
  obtain ⟨hne, rfl⟩ := List.mem_getLast?_eq_getLast hc
  exact Bool.eq_false_iff.mpr (List.rdropWhile_last_not isSpace _ hne)

/-- The line starts with something visible. -/
def IsFlush (line : Text) : Prop := ∃ c ∈ line.head?, isSpace c = false

section

variable {line : Text}

theorem IsFlush.ne_nil (hline : IsFlush line) : line ≠ [] := by
  rintro rfl
  obtain ⟨c, hc, -⟩ := hline
  cases hc

theorem IsFlush.head (hline : IsFlush line) : ∀ c ∈ line.head?, isSpace c = false := by
  obtain ⟨c, hc, hvisible⟩ := hline
  intro d hd
  rwa [Option.mem_unique hd hc]

theorem IsFlush.trim_ne_nil (hline : IsFlush line) : trim line ≠ [] := by
  obtain ⟨c, hc, hvisible⟩ := hline
  exact trim_ne_nil_of_mem (List.mem_of_mem_head? hc) hvisible

/-- Only blanks at its end are trimmed off. -/
theorem IsFlush.exists_append_trim (hline : IsFlush line) :
    ∃ back, line = trim line ++ back ∧ ∀ c ∈ back, isSpace c = true := by
  have htrim : trim line = line.rdropWhile isSpace := by
    rw [trim, trimBy, dropWhile_of_head hline.head, List.rdropWhile]
  refine ⟨line.rtakeWhile isSpace, ?_, fun c hc => List.mem_rtakeWhile_imp hc⟩
  rw [htrim, List.rdropWhile_append_rtakeWhile]

end

/-! ## Lines -/

theorem normalizeNewlines_singleton {c : Char} (hc : isSpace c = false) :
    normalizeNewlines [c] = [c] := by
  have hne : c ≠ '\r' := by
    rintro rfl
    exact absurd hc (by decide)
  rw [normalizeNewlines, if_neg hne, normalizeNewlines]
  rintro rest _ ⟨⟩

theorem head?_normalizeNewlines {t : Text} (ht : ∀ c ∈ t.head?, isSpace c = false) :
    (normalizeNewlines t).head? = t.head? := by
  cases t with
  | nil => rfl
  | cons c t =>
      have hc := ht c rfl
      have happend : normalizeNewlines ([c] ++ t) = [c] ++ normalizeNewlines t := by
        rw [normalizeNewlines_append, normalizeNewlines_singleton hc]
        rintro ⟨⟩
        exact absurd hc (by decide)
      rw [List.singleton_append, List.singleton_append] at happend
      rw [happend, List.head?_cons, List.head?_cons]

theorem getLast?_normalizeNewlines {t : Text} (ht : ∀ c ∈ t.getLast?, isSpace c = false) :
    (normalizeNewlines t).getLast? = t.getLast? := by
  rcases List.eq_nil_or_concat' t with rfl | ⟨t, c, rfl⟩
  · rfl
  · have hc := ht c List.getLast?_concat
    have happend : normalizeNewlines (t ++ [c]) = normalizeNewlines t ++ [c] := by
      rw [normalizeNewlines_append, normalizeNewlines_singleton hc]
      rintro - ⟨⟩
      exact absurd hc (by decide)
    rw [happend, List.getLast?_concat, List.getLast?_concat]

/-- Where a text starts with something visible, so does its first line. -/
theorem head?_first {t first : Text} {later : List Text}
    (hsplit : split '\n' t = first :: later) {c : Char} (hc : c ∈ t.head?)
    (hvisible : isSpace c = false) : c ∈ first.head? := by
  have hfirst := head?_split '\n' t
  rw [hsplit, List.head?_cons] at hfirst
  obtain ⟨rest, rfl⟩ := List.head?_eq_some_iff.mp hc
  have hne : c ≠ '\n' := by
    rintro rfl
    exact absurd hvisible (by decide)
  rw [Option.some.inj hfirst, List.takeWhile_cons_of_pos (by simpa using hne)]
  rfl

theorem mem_last {t last : Text} {rest : List Text}
    (hsplit : split '\n' t = rest ++ [last]) {c : Char} (hc : c ∈ t.getLast?)
    (hvisible : isSpace c = false) : c ∈ last := by
  have hlast := getLast?_split '\n' t
  rw [hsplit, List.getLast?_concat] at hlast
  obtain ⟨front, rfl⟩ := List.getLast?_eq_some_iff.mp hc
  have hne : c ≠ '\n' := by
    rintro rfl
    exact absurd hvisible (by decide)
  rw [Option.some.inj hlast, List.reverse_append, List.reverse_singleton, List.singleton_append,
    List.takeWhile_cons_of_pos (by simpa using hne), List.reverse_cons]
  exact List.mem_append_right _ List.mem_cons_self

/-- The lines of blanks are blanks. -/
theorem isSpace_of_mem_lines {t line : Text} (ht : ∀ c ∈ t, isSpace c = true)
    (hline : line ∈ split '\n' (normalizeNewlines t)) : ∀ c ∈ line, isSpace c = true := by
  intro c hc
  rcases mem_normalizeNewlines (mem_of_mem_split hline hc) with rfl | hmem
  · decide
  · exact ht c hmem

/-- Around a text that starts and ends with something visible line ends are told apart. -/
theorem normalizeNewlines_around (before behind : Text) {core : Text} (hne : core ≠ [])
    (hhead : ∀ c ∈ core.head?, isSpace c = false)
    (hend : ∀ c ∈ core.getLast?, isSpace c = false) :
    normalizeNewlines (before ++ (core ++ behind)) =
      normalizeNewlines before ++ (normalizeNewlines core ++ normalizeNewlines behind) := by
  rw [normalizeNewlines_append, normalizeNewlines_append]
  · exact fun hlast => absurd (hend '\r' hlast) (by decide)
  · intro _ hmeet
    rw [List.head?_append_of_ne_nil _ hne] at hmeet
    exact absurd (hhead '\n' hmeet) (by decide)

/-- A text with something visible has the lines of the trimmed text, with blank lines around
them and further blanks in front of the first line and behind the last one. -/
theorem exists_lines_trim {t : Text} (hvisible : trim t ≠ []) :
    ∃ front pad first later rest last tail back,
      lines t = front ++ (pad ++ first) :: later ∧
      first :: later = rest ++ (last ++ tail) :: back ∧
      lines (trim t) = rest ++ [last] ∧
      (∀ line ∈ front ++ [pad], ∀ c ∈ line, isSpace c = true) ∧
      (∀ line ∈ tail :: back, ∀ c ∈ line, isSpace c = true) ∧
      IsFlush first ∧ trim last ≠ [] := by
  obtain ⟨before, behind, ht, hbefore, hbehind⟩ := exists_append_trim t
  have hhead := head?_trim t
  have hend := getLast?_trim t
  generalize trim t = core at *
  obtain ⟨c, cs, hcore⟩ := List.exists_cons_of_ne_nil hvisible
  obtain ⟨d, hd⟩ := Option.isSome_iff_exists.mp (List.getLast?_isSome.mpr hvisible)
  have hc : c ∈ core.head? := by
    rw [hcore]
    rfl
  obtain ⟨front, pad, hfront⟩ :=
    (List.eq_nil_or_concat' _).resolve_left (split_ne_nil '\n' (normalizeNewlines before))
  obtain ⟨rest, last, hrest⟩ :=
    (List.eq_nil_or_concat' _).resolve_left (split_ne_nil '\n' (normalizeNewlines core))
  obtain ⟨tail, back, hback⟩ :=
    List.exists_cons_of_ne_nil (split_ne_nil '\n' (normalizeNewlines behind))
  have hmiddle := split_meet hrest hback
  obtain ⟨first, later, hfirst⟩ :=
    List.exists_cons_of_ne_nil
      (split_ne_nil '\n' (normalizeNewlines core ++ normalizeNewlines behind))
  refine ⟨front, pad, first, later, rest, last, tail, back, ?_,
    hfirst.symm.trans hmiddle, hrest, ?_, ?_, ?_, ?_⟩
  · rw [lines, ht, normalizeNewlines_around before behind hvisible hhead hend,
      split_meet hfront hfirst]
  · exact fun line hline => isSpace_of_mem_lines hbefore (hfront ▸ hline)
  · exact fun line hline => isSpace_of_mem_lines hbehind (hback ▸ hline)
  · refine ⟨c, head?_first hfirst ?_ (hhead c hc), hhead c hc⟩
    have hstart : c ∈ (normalizeNewlines core).head? := by rwa [head?_normalizeNewlines hhead]
    have hne : normalizeNewlines core ≠ [] := by
      intro hnil
      rw [hnil] at hstart
      cases hstart
    rwa [List.head?_append_of_ne_nil _ hne]
  · refine trim_ne_nil_of_mem (mem_last hrest ?_ (hend d hd)) (hend d hd)
    rwa [getLast?_normalizeNewlines hend]

end SymbolGraph.Text
