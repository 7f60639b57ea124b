import SymbolGraph.Line.Basic
import SymbolGraph.Outline.Basic
set_option autoImplicit false

/-!
# Call sites

A call site is a dotted name with an opening parenthesis behind it, perhaps after blanks. The
name starts at the first ASCII letter or underscore of its run of word characters and dots.
Words of the language that may stand before a parenthesis are no calls.
-/

namespace SymbolGraph

open Text

/-- Words that may stand before a parenthesis without being called. -/
def callKeywords : List Text :=
  ["if", "elif", "else", "for", "while", "with", "return", "yield", "raise", "except", "class",
   "def", "await", "lambda", "try", "assert", "del", "global", "nonlocal", "pass", "break",
   "continue", "not", "and", "or", "in", "is", "from", "import", "as"].map String.toList

/-- The text starts with an opening parenthesis, perhaps after blanks. -/
def opensCall (t : Text) : Bool :=
  match trimLeft t with
  | '(' :: _ => true
  | _ => false

/-- The dotted names with a parenthesis behind them in a text that starts at `column`, each with
its column. -/
def calledNames (column : Nat) : Text → List (Nat × Text)
  | [] => []
  | c :: cs =>
    if isNameStart c then
      let rest := cs.dropWhile isDottedChar
      let name := c :: cs.takeWhile isDottedChar
      let later := calledNames (column + name.length) rest
      if opensCall rest then (column, name) :: later else later
    else calledNames (column + 1) cs
termination_by t => t.length
decreasing_by
  · have := (List.dropWhile_sublist isDottedChar (l := cs)).length_le
    simp only [List.length_cons]; omega
  · simp

/-- The call sites of a line. -/
def Line.callSites (l : Line) : List CallSite :=
  ((calledNames 1 l.raw).filter fun (_, name) =>
    ! callKeywords.contains (firstSegment name)).map
    fun (column, name) => { name, line := l.number, column }

/-- The call sites of a body. Blank lines have none, and headers declare names rather than call
them. -/
def bodyCalls (body : List Line) : List CallSite :=
  (body.filter fun l => ! (l.isBlank || l.form.isHeader)).flatMap Line.callSites

end SymbolGraph
