import SymbolGraph.Line.Basic
import SymbolGraph.Text.Dedent
set_option autoImplicit false

/-!
# Docstrings

A docstring is the first statement of a block when that is a text in triple quotes, with at most
two of the letters `r`, `R`, `u`, `U` before it. It ends at the next triple quote of the same
kind: on its first line, where it is trimmed; or on a later line, where it is dedented; or, when
there is none, with the file.
-/

namespace SymbolGraph

open Text

/-- A docstring, and the number of lines after the header that precede the rest of the body. -/
structure Docstring where
  text : Option Text
  bodyOffset : Nat
  deriving DecidableEq, Repr

namespace Docstring

/-- The two triple quotes. -/
def quotes : List Text := [List.replicate 3 '"', List.replicate 3 '\'']

/-- The letters that may precede the opening quote. -/
def isMark (c : Char) : Bool := c == 'r' || c == 'R' || c == 'u' || c == 'U'

/-- The quote that opens a docstring at the start of a text, and what follows it. -/
def opening? (content : Text) : Option (Text × Text) :=
  if (content.takeWhile isMark).length ≤ 2 then
    quotes.findSome? fun q => (dropHead? q (content.dropWhile isMark)).map fun rest => (q, rest)
  else none

/-- The texts of the lines up to the next quote, and how many lines they are. -/
def untilQuote (quote : Text) : List Line → List Text × Nat
  | [] => ([], 0)
  | l :: ls =>
    match breakOn? quote l.raw with
    | some (before, _) => ([before], 1)
    | none => let (texts, n) := untilQuote quote ls; (l.raw :: texts, n + 1)

/-- The docstring that opens with `quote` on line `l`, where `rest` follows the quote; `later`
are the lines after `l`. Gives the text and the number of lines after `l` that it takes. -/
def capture (quote rest : Text) (l : Line) (later : List Line) : Text × Nat :=
  match breakOn? quote rest with
  | some (before, _) => (trim before, 0)
  | none =>
    let first := ((breakOn? quote l.raw).map (·.2)).getD []
    let (texts, n) := untilQuote quote later
    (dedent (unlines (first :: texts)), n)

/-- The docstring of a block of `size` lines, out of all lines after its header. -/
def read (indent : Int) (size : Nat) (after : List Line) : Docstring :=
  let window := after.take size
  let skipped := (window.takeWhile (·.isBlank)).length
  match window.drop skipped with
  | [] => ⟨none, size⟩
  | l :: _ =>
    if (l.indent : Int) ≤ indent then ⟨none, skipped⟩
    else
      match opening? l.content with
      | none => ⟨none, skipped⟩
      | some (quote, rest) =>
        let (text, n) := capture quote rest l (after.drop (skipped + 1))
        ⟨some text, skipped + n + 1⟩

/-- As `read`, when docstrings are wanted; otherwise there is none and all lines are body. -/
def readIf (wanted : Bool) (indent : Int) (size : Nat) (after : List Line) : Docstring :=
  if wanted then read indent size after else ⟨none, 0⟩

end Docstring

end SymbolGraph
