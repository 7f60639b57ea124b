import SymbolGraph.Proofs.Text.Lines
import SymbolGraph.Text.Dedent
set_option autoImplicit false

/-!
# Dedenting what was indented

Lines that are written behind a number of blanks, all but the first and the empty ones, are read
back without them: the least indentation found is that number when one of the lines starts at
it. What stands in front of a closing mark on a line of its own is blank. It does not count for
the margin and is gone with it. Where there is no other line to give a margin it stays.
-/

namespace SymbolGraph.Text

/-! ## Lines of a text without tabs -/

theorem widenTabs_of_not_mem {t : Text} (htabs : '\t' ∉ t) (column : Nat) :
    widenTabs column t = t := by
  induction t generalizing column with
  | nil => rfl
  | cons c t ih =>
      have hc : c ≠ '\t' := fun heq => htabs (heq ▸ List.mem_cons_self)
      have hrest := ih fun hmem => htabs (List.mem_cons_of_mem c hmem)
      rw [widenTabs, if_neg hc]
      split
      · rw [hrest]
      · rw [hrest]

/-- A line that is neither cut nor widened when it is dedented. -/
structure IsPlainLine (line : Text) : Prop where
  tabFree : '\t' ∉ line
  lineFree : '\n' ∉ line

instance (line : Text) : Decidable (IsPlainLine line) :=
  decidable_of_iff ('\t' ∉ line ∧ '\n' ∉ line)
    ⟨fun h => ⟨h.1, h.2⟩, fun h => ⟨h.tabFree, h.lineFree⟩⟩

theorem dedent_unlines {first : Text} {later : List Text}
    (hplain : ∀ line ∈ first :: later, IsPlainLine line) :
    dedent (unlines (first :: later)) =
      unlines (dropEmptyEnds (trimLeft first :: later.map (·.drop (margin later)))) := by
  have htabs : '\t' ∉ unlines (first :: later) := by
    intro hmem
    rcases mem_join hmem with hglue | ⟨line, hline, hc⟩
    · exact absurd hglue (by decide)
    · exact (hplain line hline).tabFree hc
  have hsplit : split '\n' (unlines (first :: later)) = first :: later :=
    split_join (List.cons_ne_nil first later) fun line hline => (hplain line hline).lineFree
  rw [dedent, widenTabs_of_not_mem htabs, hsplit]

/-! ## Empty lines at the ends -/

theorem dropWhile_empty {ls : List Text} (hfirst : ∀ line ∈ ls.head?, line ≠ []) :
    ls.dropWhile (· = []) = ls := by
  cases ls with
  | nil => rfl
  | cons line ls => exact List.dropWhile_cons_of_neg (by simpa using hfirst line rfl)

/-- Of lines that start and end with one that is not empty, all are kept. -/
theorem dropEmptyEnds_append {ls empties : List Text} (hfirst : ∀ line ∈ ls.head?, line ≠ [])
    (hlast : ∀ line ∈ ls.getLast?, line ≠ []) (hne : ls ≠ [])
    (hempties : ∀ line ∈ empties, line = []) : dropEmptyEnds (ls ++ empties) = ls := by
  have hstart : ∀ line ∈ (ls ++ empties).head?, line ≠ [] := by
    rw [List.head?_append_of_ne_nil _ hne]
    exact hfirst
  have hrun : ∀ line ∈ empties.reverse, decide (line = []) = true := fun line hline =>
    decide_eq_true (hempties line (List.mem_reverse.mp hline))
  rw [← List.head?_reverse] at hlast
  rw [dropEmptyEnds, dropWhile_empty hstart, List.reverse_append,
    List.dropWhile_append_of_pos hrun, dropWhile_empty hlast, List.reverse_reverse]

/-! ## The margin -/

section

variable {line : Text}

theorem leadingBlanks_append {blanks : Text} (hblanks : ∀ c ∈ blanks, isSpace c = true)
    (hline : IsFlush line) : leadingBlanks (blanks ++ line) = blanks.length := by
  rw [leadingBlanks, takeWhile_run hblanks hline.head]

theorem length_le_leadingBlanks {blanks : Text} (hblanks : ∀ c ∈ blanks, isSpace c = true)
    (line : Text) : blanks.length ≤ leadingBlanks (blanks ++ line) := by
  rw [leadingBlanks, List.takeWhile_append_of_pos hblanks, List.length_append]
  exact Nat.le_add_right _ _

end

theorem margin_eq {ls : List Text} {k : Nat}
    (hreached : ∃ line ∈ ls, trimLeft line ≠ [] ∧ leadingBlanks line = k)
    (hleast : ∀ line ∈ ls, trimLeft line ≠ [] → k ≤ leadingBlanks line) : margin ls = k := by
  have hmin : ((ls.filter fun l => trimLeft l ≠ []).map leadingBlanks).min? = some k := by
    rw [List.min?_eq_some_iff]
    constructor
    · obtain ⟨line, hline, hvisible, rfl⟩ := hreached
      exact List.mem_map_of_mem (List.mem_filter.mpr ⟨hline, decide_eq_true hvisible⟩)
    · intro n hn
      obtain ⟨line, hline, rfl⟩ := List.mem_map.mp hn
      obtain ⟨hline, hvisible⟩ := List.mem_filter.mp hline
      exact hleast line hline (of_decide_eq_true hvisible)
  rw [margin, hmin, Option.getD_some]

/-! ## Padded lines -/

/-- The line behind `k` blanks; an empty line stays empty. -/
def padLine (k : Nat) (line : Text) :
    Text := if line = [] then [] else List.replicate k ' ' ++ line

theorem isSpace_of_mem_blanks {k : Nat} : ∀ c ∈ List.replicate k ' ', isSpace c = true := by
  intro c hc
  rw [List.eq_of_mem_replicate hc]
  decide

theorem drop_padLine (k : Nat) (line : Text) : (padLine k line).drop k = line := by
  unfold padLine
  split
  · next hempty => rw [hempty, List.drop_nil]
  · exact List.drop_left' List.length_replicate

theorem IsPlainLine.padLine {line : Text} (hline : IsPlainLine line) (k : Nat) :
    IsPlainLine (padLine k line) := by
  have hblanks : ∀ c ≠ ' ', c ∉ line → c ∉ Text.padLine k line := by
    intro c hc hfree hmem
    unfold Text.padLine at hmem
    split at hmem
    · cases hmem
    · exact (List.mem_append.mp hmem).elim (fun h => hc (List.eq_of_mem_replicate h)) hfree
  exact ⟨hblanks '\t' (by decide) hline.tabFree, hblanks '\n' (by decide) hline.lineFree⟩

theorem isPlainLine_blanks (k : Nat) : IsPlainLine (List.replicate k ' ') :=
  ⟨fun hmem => absurd (List.eq_of_mem_replicate hmem) (by decide),
    fun hmem => absurd (List.eq_of_mem_replicate hmem) (by decide)⟩

section

variable {first : Text} {later : List Text} {k : Nat}

theorem margin_padLine (hflush : ∃ line ∈ later, IsFlush line) :
    margin (later.map (padLine k) ++ [List.replicate k ' ']) = k := by
  refine margin_eq ?_ fun line hline hvisible => ?_
  · obtain ⟨line, hline, hflush⟩ := hflush
    have hpadLine : padLine k line = List.replicate k ' ' ++ line := if_neg hflush.ne_nil
    refine ⟨padLine k line, List.mem_append_left _ (List.mem_map_of_mem hline), ?_, ?_⟩
    · rw [hpadLine, trimLeft, dropWhile_run isSpace_of_mem_blanks hflush.head]
      exact hflush.ne_nil
    · rw [hpadLine, leadingBlanks_append isSpace_of_mem_blanks hflush, List.length_replicate]
  · rcases List.mem_append.mp hline with hline | hline
    · obtain ⟨line, -, rfl⟩ := List.mem_map.mp hline
      by_cases hempty : line = []
      · rw [padLine, if_pos hempty] at hvisible
        exact absurd rfl hvisible
      · have hle := length_le_leadingBlanks (isSpace_of_mem_blanks (k := k)) line
        rw [List.length_replicate] at hle
        rwa [padLine, if_neg hempty]
    · rw [List.mem_singleton.mp hline] at hvisible
      exact absurd (List.dropWhile_eq_nil_iff.mpr isSpace_of_mem_blanks) hvisible

/-- Lines written behind `k` blanks, with the blanks of a closing line behind them, are dedented
to what they were. -/
theorem dedent_padLine (hplain : ∀ line ∈ first :: later, IsPlainLine line)
    (hfirst : IsFlush first) (hflush : ∃ line ∈ later, IsFlush line)
    (hlast : ∀ line ∈ later.getLast?, line ≠ []) :
    dedent (unlines (first :: (later.map (padLine k) ++ [List.replicate k ' ']))) =
      unlines (first :: later) := by
  have hwritten : ∀ line ∈ first
      :: (later.map (padLine k) ++ [List.replicate k ' ']), IsPlainLine line := by
    intro line hline
    rcases List.mem_cons.mp hline with rfl | hline
    · exact hplain line List.mem_cons_self
    · rcases List.mem_append.mp hline with hline | hline
      · obtain ⟨bare, hbare, rfl⟩ := List.mem_map.mp hline
        exact (hplain bare (List.mem_cons_of_mem first hbare)).padLine k
      · rw [List.mem_singleton.mp hline]
        exact isPlainLine_blanks k
  have hdropped : (later.map (padLine k) ++ [List.replicate k ' ']).map (·.drop k) =
      later ++ [[]] := by
    simp [Function.comp_def, drop_padLine]
  have hne : later ≠ [] := by
    obtain ⟨line, hline, -⟩ := hflush
    exact List.ne_nil_of_mem hline
  rw [dedent_unlines hwritten, margin_padLine hflush, hdropped, trimLeft,
    dropWhile_of_head hfirst.head, ← List.cons_append, dropEmptyEnds_append]
  · rintro line ⟨⟩
    exact hfirst.ne_nil
  · rwa [List.getLast?_cons_of_ne_nil hne]
  · exact List.cons_ne_nil first later
  · exact List.forall_mem_singleton.mpr rfl

/-- Behind one line alone the blanks of a closing line stay. -/
theorem dedent_lone (hplain : IsPlainLine first) (hfirst : IsFlush first) (hk : 0 < k) :
    dedent (unlines [first, List.replicate k ' ']) = first ++ '\n' :: List.replicate k ' ' := by
  have hwritten : ∀ line ∈ [first, List.replicate k ' '], IsPlainLine line :=
    List.forall_mem_cons.mpr ⟨hplain, List.forall_mem_singleton.mpr (isPlainLine_blanks k)⟩
  have hblank : trimLeft (List.replicate k ' ') = [] :=
    List.dropWhile_eq_nil_iff.mpr isSpace_of_mem_blanks
  have hmargin : margin [List.replicate k ' '] = 0 := by simp [margin, hblank]
  have hends : dropEmptyEnds ([first, List.replicate k ' '] ++ []) =
      [first, List.replicate k ' '] := by
    refine dropEmptyEnds_append ?_ ?_ (List.cons_ne_nil _ _) (List.forall_mem_nil _)
    · rintro line ⟨⟩
      exact hfirst.ne_nil
    · rintro line ⟨⟩
      rw [List.getLast_cons_cons, List.getLast_singleton]
      exact List.ne_nil_of_length_pos (by rwa [List.length_replicate])
  rw [List.append_nil] at hends
  rw [dedent_unlines hwritten, hmargin, trimLeft, dropWhile_of_head hfirst.head,
    List.map_singleton, List.drop_zero, hends]
  exact List.append_assoc first ['\n'] (List.replicate k ' ')

end

end SymbolGraph.Text
