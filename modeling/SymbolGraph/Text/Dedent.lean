import SymbolGraph.Text.Basic
set_option autoImplicit false

/-!
# Dedenting

A text that spans several lines is shown without the indentation that its place in a file gave
it. Tabs are widened to the next multiple of eight columns; the first line loses its leading
blanks; the later lines lose the least indentation found among those that are not blank; then
empty lines are dropped at both ends.
-/

namespace SymbolGraph.Text

/-- Widens tabs to the next multiple of eight columns, counted from `column`. -/
def widenTabs (column : Nat) : Text → Text
  | [] => []
  | c :: cs =>
    if c = '\t' then
      let width := 8 - column % 8
      List.replicate width ' ' ++ widenTabs (column + width) cs
    else if c = '\n' || c = '\r' then c :: widenTabs 0 cs
    else c :: widenTabs (column + 1) cs

/-- The number of blanks that a line starts with. -/
def leadingBlanks (line : Text) : Nat := (line.takeWhile isSpace).length

/-- The least indentation of the lines that are not blank, or 0 when there is none. -/
def margin (ls : List Text) : Nat :=
  (((ls.filter fun l => trimLeft l ≠ []).map leadingBlanks).min?).getD 0

/-- Drops empty lines at both ends. -/
def dropEmptyEnds (ls : List Text) : List Text :=
  ((ls.dropWhile (· = [])).reverse.dropWhile (· = [])).reverse

/-- A text without the indentation of its place. -/
def dedent (t : Text) : Text :=
  match split '\n' (widenTabs 0 t) with
  | [] => []
  | first :: later =>
    unlines (dropEmptyEnds (trimLeft first :: later.map (·.drop (margin later))))

end SymbolGraph.Text
