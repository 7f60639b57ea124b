import SymbolGraph.Line.Form
import SymbolGraph.Text.Basic
set_option autoImplicit false

/-!
# Lines

A line of a file with its place, its indentation, its text without the blanks around it, and its
form. Indentation is the number of leading spaces and tabs; a tab counts as one.
-/

namespace SymbolGraph

open Text

/-- A physical line of a file. -/
structure Line where
  /-- The place in the file, from 0. -/
  index : Nat
  /-- The text of the line, without its line end. -/
  raw : Text
  /-- The number of leading spaces and tabs. -/
  indent : Nat
  /-- The text without the blanks around it. -/
  content : Text
  /-- What the line is. -/
  form : LineForm
  deriving DecidableEq, Repr

/-- The number of spaces and tabs that a text starts with. -/
def indentation (raw : Text) : Nat := (raw.takeWhile isIndent).length

namespace Line

/-- The line with the given place and text. -/
def ofText (index : Nat) (raw : Text) : Line :=
  { index, raw, indent := indentation raw, content := trim raw, form := .ofText raw }

/-- The number of the line, from 1. -/
def number (l : Line) : Nat := l.index + 1

/-- The line is empty or a comment. -/
def isBlank (l : Line) : Bool := l.form == .blank

/-- The line is a decorator. -/
def isDecorator (l : Line) : Bool := l.form == .decorator

/-- The lines of a text. -/
def scan (t : Text) : List Line := (Text.lines t).mapIdx ofText

/-- The text of several lines, with line feeds between them. -/
def excerpt (ls : List Line) : Text := unlines (ls.map raw)

end Line

/-! ## Blocks and decorator runs

A header opens a block: the lines that follow it up to the first one, blank lines and comments
apart, that is indented no deeper than the header. Blank lines at the end of a block belong to
it. Decorators stand before a header, with blank lines allowed between them. -/

/-- The line belongs to a block whose header is indented by `indent`, if all lines between
do. -/
def Line.inBlock (indent : Int) (l : Line) : Bool := l.isBlank || decide (indent < l.indent)

/-- The lines of a block, out of the lines that follow its header. -/
def block (indent : Int) (after : List Line) : List Line := after.takeWhile (·.inBlock indent)

/-- The place of the last line of the block opened at `start`. -/
def blockEnd (ls : List Line) (start : Nat) (indent : Int) : Nat :=
  start + (block indent (ls.drop (start + 1))).length

/-- The run of decorators and blank lines at the front. -/
def decoratorRun (ls : List Line) :
    List Line := ls.takeWhile fun l => l.isDecorator || l.isBlank

/-- The texts of the decorators among some lines. -/
def decoratorTexts (ls : List Line) : List Text := (ls.filter (·.isDecorator)).map (·.content)

end SymbolGraph
