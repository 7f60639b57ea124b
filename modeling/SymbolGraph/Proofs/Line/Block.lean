import SymbolGraph.Line.Basic
set_option autoImplicit false

/-!
# Blocks lie inside each other or apart

A place is in the block opened at an earlier place exactly when all lines up to it belong to the
block (`le_blockEnd_iff`). So the block that a line opens at its own indentation ends no later
than any block that the line lies in (`blockEnd_le_of_inside`): two blocks overlap only where
one holds the other.
-/

namespace SymbolGraph

theorem block_isPrefix (indent : Int) (after : List Line) : block indent after <+: after :=
  List.takeWhile_prefix _

theorem le_blockEnd (ls : List Line) (start : Nat) (indent : Int) :
    start ≤ blockEnd ls start indent :=
  Nat.le_add_right _ _

/-- A block ends within the file. -/
theorem blockEnd_lt_length {ls : List Line} {start : Nat} (hstart : start < ls.length)
    (indent : Int) : blockEnd ls start indent < ls.length := by
  have hlength : (block indent (ls.drop (start + 1))).length ≤ (ls.drop (start + 1)).length :=
    (block_isPrefix _ _).length_le
  rw [List.length_drop] at hlength
  rw [blockEnd]
  omega

/-- Lines before the header move the end of its block by their number. -/
theorem blockEnd_append (before ls : List Line) (start : Nat) (indent : Int) :
    blockEnd (before ++ ls) (before.length + start) indent =
      before.length + blockEnd ls start indent := by
  rw [blockEnd, blockEnd, Nat.add_assoc before.length start 1, List.drop_length_add_append,
    Nat.add_assoc]

/-- A block reaches a place if all lines up to there belong to it. -/
theorem lt_length_block_iff (indent : Int) (after : List Line) (k : Nat) :
    k < (block indent after).length ↔
      k < after.length ∧ ∀ j ≤ k, ∀ l, after[j]? = some l → l.inBlock indent = true := by
  have hfind : k < after.findIdx (fun l => ! l.inBlock indent) ↔
      k < after.length ∧ ∀ j ≤ k, ∀ l, after[j]? = some l → l.inBlock indent = true := by
    rw [List.lt_findIdx_iff]
    constructor
    · rintro ⟨hk, hall⟩
      refine ⟨hk, fun j hj l hl => ?_⟩
      obtain ⟨hj', rfl⟩ := List.getElem?_eq_some_iff.mp hl
      simpa using hall j hj
    · rintro ⟨hk, hall⟩
      refine ⟨hk, fun j hj => ?_⟩
      simpa using hall j hj _ (List.getElem?_eq_getElem (by omega))
  have hle : after.findIdx (fun l => ! l.inBlock indent) ≤ after.length :=
    List.findIdx_le_length
  rw [block, List.takeWhile_eq_take_findIdx_not, List.length_take, Nat.min_eq_left hle, hfind]

/-- A place is in the block of an earlier one if it is in the file and all lines between, and
its own, belong to the block. -/
theorem le_blockEnd_iff {ls : List Line} {start h : Nat} (hlt : start < h) (indent : Int) :
    h ≤ blockEnd ls start indent ↔
      h < ls.length ∧ ∀ k, start < k → k ≤ h → ∀ l, ls[k]? = some l →
      l.inBlock indent = true := by
  have hplace : h ≤ blockEnd ls start indent ↔
      h - (start + 1) < (block indent (ls.drop (start + 1))).length := by
    rw [blockEnd]
    omega
  rw [hplace, lt_length_block_iff, List.length_drop]
  constructor
  · rintro ⟨hlength, hall⟩
    refine ⟨by omega, fun k hk hkh l hl => hall (k - (start + 1)) (by omega) l ?_⟩
    rw [List.getElem?_drop, Nat.add_sub_cancel' hk]
    exact hl
  · rintro ⟨hlength, hall⟩
    refine ⟨by omega, fun j hj l hl => hall (start + 1 + j) (by omega) (by omega) l ?_⟩
    rw [← List.getElem?_drop]
    exact hl

/-- A header is neither blank nor a comment. -/
theorem Line.isBlank_of_isHeader {l : Line} (hheader : l.form.isHeader = true) :
    l.isBlank = false := by
  rw [Line.isBlank, beq_eq_false_iff_ne]
  intro hblank
  rw [hblank] at hheader
  cases hheader

/-- A line in a block, blank lines apart, is indented deeper than the block's header. -/
theorem Line.lt_indent_of_inBlock {l : Line} {indent : Int} (hin : l.inBlock indent = true)
    (hblank : l.isBlank = false) : indent < l.indent := by
  simpa [Line.inBlock, hblank] using hin

/-- A block holds the lines of deeper blocks. -/
theorem Line.inBlock_mono {l : Line} {indent deeper : Int} (hle : indent ≤ deeper)
    (hin : l.inBlock deeper = true) : l.inBlock indent = true := by
  simp only [Line.inBlock, Bool.or_eq_true, decide_eq_true_eq] at hin ⊢
  exact hin.imp_right fun hdeep => Int.lt_of_le_of_lt hle hdeep

/-- The block of a line in a block ends no later than that block. -/
theorem blockEnd_le_of_inside {ls : List Line} {g h : Nat} {indent : Int} {l : Line}
    (hlt : g < h) (hinside : h ≤ blockEnd ls g indent) (hl : ls[h]? = some l)
    (hblank : l.isBlank = false) : blockEnd ls h l.indent ≤ blockEnd ls g indent := by
  obtain ⟨hlength, hall⟩ := (le_blockEnd_iff hlt indent).mp hinside
  have hdeeper : indent < l.indent :=
    Line.lt_indent_of_inBlock (hall h hlt h.le_refl l hl) hblank
  have hend := le_blockEnd ls h l.indent
  refine (le_blockEnd_iff (by omega) indent).mpr ⟨blockEnd_lt_length hlength _, ?_⟩
  intro k hgk hk l' hl'
  -- up to the line the outer block tells, behind it the inner one, which is deeper
  by_cases hkh : k ≤ h
  · exact hall k hgk hkh l' hl'
  · have hin := ((le_blockEnd_iff (by omega) l.indent).mp hk).2 k (by omega) k.le_refl l' hl'
    exact Line.inBlock_mono (by omega) hin

end SymbolGraph
