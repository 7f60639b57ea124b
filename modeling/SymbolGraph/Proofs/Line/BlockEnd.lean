import SymbolGraph.Line.Position
import SymbolGraph.Proofs.Line.Block
set_option autoImplicit false

/-!
# Where blocks end

The end of a block is told by the lines alone: up to it all lines that are not blank are deeper
than the header, and behind it either the file ends or a line stands that is not blank and no
deeper (`endsBlock_iff`). So a deeper header has the shorter block (`blockEnd_antitone`), and of
two blocks one lies in the other or they are apart (`blocks_exact`).
-/

namespace SymbolGraph

/-- The block that is opened at a place by a header of some indentation ends at another
place. -/
structure EndsBlock (ls : List Line) (start : Nat) (indent : Int) (last : Nat) : Prop where
  from_start : start ≤ last
  within : last < ls.length
  deeper : ∀ k l, start < k → k ≤ last → ls[k]? = some l → l.isBlank = false → indent < l.indent
  stops : last + 1 = ls.length ∨
    ∃ l, ls[last + 1]? = some l ∧ l.isBlank = false ∧ (l.indent : Int) ≤ indent

/-- A line is outside of a block if it is not blank and no deeper than the header. -/
theorem Line.inBlock_eq_false_iff {l : Line} {indent : Int} :
    l.inBlock indent = false ↔ l.isBlank = false ∧ (l.indent : Int) ≤ indent := by
  rw [Line.inBlock, Bool.or_eq_false_iff, decide_eq_false_iff_not, Int.not_lt]

theorem Line.inBlock_of_deeper {l : Line} {indent : Int}
    (hdeeper : l.isBlank = false → indent < l.indent) : l.inBlock indent = true := by
  rw [← Bool.not_eq_false, Line.inBlock_eq_false_iff]
  rintro ⟨hblank, hle⟩
  exact absurd (hdeeper hblank) (Int.not_lt.mpr hle)

/-- Behind the last line of a block stands a line that does not belong to it, if one stands
there. -/
theorem inBlock_behind_blockEnd {ls : List Line} {start : Nat} {indent : Int} {l : Line}
    (hl : ls[blockEnd ls start indent + 1]? = some l) : l.inBlock indent = false := by
  have hle := le_blockEnd ls start indent
  rw [← Bool.not_eq_true]
  intro hin
  have hnext : blockEnd ls start indent + 1 ≤ blockEnd ls start indent := by
    refine (le_blockEnd_iff (by omega) indent).mpr ⟨(List.getElem?_eq_some_iff.mp hl).1, ?_⟩
    intro k hstart hk l' hl'
    rcases Nat.lt_or_ge (blockEnd ls start indent) k with hlast | hbefore
    · obtain rfl : k = blockEnd ls start indent + 1 := by omega
      exact Option.some.inj (hl.symm.trans hl') ▸ hin
    · exact ((le_blockEnd_iff hstart indent).mp hbefore).2 k hstart k.le_refl l' hl'
  omega

theorem endsBlock_blockEnd {ls : List Line} {start : Nat} (hstart : start < ls.length)
    (indent : Int) :
    EndsBlock ls start indent (blockEnd ls start indent) where
  from_start := le_blockEnd ls start indent
  within := blockEnd_lt_length hstart indent
  deeper k l hlt hle hl hblank := by
    have hin := ((le_blockEnd_iff hlt indent).mp hle).2 k hlt k.le_refl l hl
    exact Line.lt_indent_of_inBlock hin hblank
  stops := by
    have hwithin := blockEnd_lt_length hstart indent
    rcases Nat.lt_or_ge (blockEnd ls start indent + 1) ls.length with hnext | hend
    · have hl := List.getElem?_eq_getElem hnext
      exact Or.inr ⟨_, hl, Line.inBlock_eq_false_iff.mp (inBlock_behind_blockEnd hl)⟩
    · exact Or.inl (by omega)

/-- A block ends at one place only. -/
theorem EndsBlock.eq_blockEnd {ls : List Line} {start last : Nat} {indent : Int}
    (hends : EndsBlock ls start indent last) : last = blockEnd ls start indent := by
  refine Nat.le_antisymm ?_ (Nat.le_of_not_lt fun hlater => ?_)
  · rcases Nat.eq_or_lt_of_le hends.from_start with rfl | hlt
    · exact le_blockEnd ls start indent
    · refine (le_blockEnd_iff hlt indent).mpr ⟨hends.within, fun k hk hle l hl => ?_⟩
      exact Line.inBlock_of_deeper (hends.deeper k l hk hle hl)
  · -- the line behind the place would belong to the block
    have hstart := hends.from_start
    obtain ⟨hlength, hall⟩ := (le_blockEnd_iff (by omega) indent).mp (Nat.succ_le_of_lt hlater)
    rcases hends.stops with hend | ⟨l, hl, hblank, hle⟩
    · omega
    · have hin := hall (last + 1) (by omega) (last + 1).le_refl l hl
      exact absurd (Line.lt_indent_of_inBlock hin hblank) (Int.not_lt.mpr hle)

theorem endsBlock_iff {ls : List Line} {start : Nat} (hstart : start < ls.length) (indent : Int)
    (last : Nat) : EndsBlock ls start indent last ↔ last = blockEnd ls start indent :=
  ⟨EndsBlock.eq_blockEnd, fun hlast => hlast ▸ endsBlock_blockEnd hstart indent⟩

/-- The block of a deeper header ends no later. -/
theorem blockEnd_antitone (ls : List Line) (start : Nat) {indent deeper : Int}
    (hle : indent ≤ deeper) : blockEnd ls start deeper ≤ blockEnd ls start indent := by
  rcases Nat.eq_or_lt_of_le (le_blockEnd ls start deeper) with hnone | hlt
  · rw [← hnone]
    exact le_blockEnd ls start indent
  · obtain ⟨hlength, hall⟩ := (le_blockEnd_iff hlt deeper).mp (Nat.le_refl _)
    exact (le_blockEnd_iff hlt indent).mpr
      ⟨hlength, fun k hk hke l hl => Line.inBlock_mono hle (hall k hk hke l hl)⟩

/-- A block is found by its place in the file as by the lines behind its header. -/
theorem blockEnd?_eq (ls : List Line) (start : Nat) (indent : Int) :
    Position.blockEnd? ls start indent = some (blockEnd ls start indent : Int) := by
  have hplace : ((start : Int) + 1).toNat = start + 1 := by omega
  have hfrom : Position.linesFrom? ls ((start : Int) + 1) = some (ls.drop (start + 1)) := by
    rw [Position.linesFrom?, if_pos (by omega), hplace]
  rw [Position.blockEnd?, hfrom, blockEnd, Int.natCast_add]
  rfl

/-- Take any lines. The block that is opened at one of them, at any indentation of its header,
has an end, and it is the only place in the file, at the header or behind it, such that all
lines up to it are deeper than the header or blank and that the next line, if there is one, is
neither. With a deeper header the end is no later. Of two lines that are not blank, each a
header at its own indentation, the later one stands behind the block of the earlier one or its
block ends no later than that. -/
theorem blocks_exact (ls : List Line) :
    (∀ start < ls.length, ∀ indent : Int,
      Position.blockEnd? ls start indent = some (blockEnd ls start indent : Int) ∧
        ∀ e, EndsBlock ls start indent e ↔ e = blockEnd ls start indent) ∧
    (∀ start < ls.length, ∀ indent deeper : Int, indent ≤ deeper →
      blockEnd ls start deeper ≤ blockEnd ls start indent) ∧
    ∀ (i j : Nat) (l m : Line), i < j → ls[i]? = some l → ls[j]? = some m →
      l.isBlank = false → m.isBlank = false →
      blockEnd ls i l.indent < j ∨ blockEnd ls j m.indent ≤ blockEnd ls i l.indent := by
  refine ⟨fun start hstart indent => ?_, fun start _ indent deeper hle => ?_, ?_⟩
  · exact ⟨blockEnd?_eq ls start indent, endsBlock_iff hstart indent⟩
  · exact blockEnd_antitone ls start hle
  · intro i j l m hij _ hm _ hblank
    rcases Nat.lt_or_ge (blockEnd ls i l.indent) j with hbehind | hinside
    · exact Or.inl hbehind
    · exact Or.inr (blockEnd_le_of_inside hij hinside hm hblank)

/-- A header with a comment at the start of a line and a deeper header in its block, and a line
behind it. -/
def nestedLines : List Line :=
  ["class A:", "  def f():", "# note", "    x()", "", "y = 1"].map String.toList
    |>.mapIdx Line.ofText

/-- Both blocks go on over the comment and the empty line up to the line behind them. -/
theorem blocks_exact_nestedLines :
    (∀ e, EndsBlock nestedLines 0 0 e ↔ e = 4) ∧ (∀ e, EndsBlock nestedLines 1 2 e ↔ e = 4) ∧
      blockEnd nestedLines 0 2 ≤ blockEnd nestedLines 0 0 ∧
      blockEnd nestedLines 1 2 ≤ blockEnd nestedLines 0 0 := by
  obtain ⟨hexact, hdeeper, hinside⟩ := blocks_exact nestedLines
  have houter : blockEnd nestedLines 0 0 = 4 := by decide
  have hinner : blockEnd nestedLines 1 2 = 4 := by decide
  have hfirst := (hexact 0 (by decide) 0).2
  have hsecond := (hexact 1 (by decide) 2).2
  rw [houter] at hfirst
  rw [hinner] at hsecond
  refine ⟨hfirst, hsecond, hdeeper 0 (by decide) 0 2 (by decide), ?_⟩
  exact (hinside 0 1 _ _ (by decide) rfl rfl (by decide) (by decide)).resolve_left (by decide)

end SymbolGraph
