import SymbolGraph.Line.Docstring
set_option autoImplicit false

/-!
# Places counted from either end

The operations on blocks, decorators, docstrings and excerpts, for a place given as an integer.
A negative place counts from the end of the file, and reading on from it passes over the end to
the first line. Reading a line that is not there is refused.
-/

namespace SymbolGraph.Position

/-- The lines from a place on; from a negative place the last lines come first, then the whole
file. -/
def linesFrom? (ls : List Line) (p : Int) : Option (List Line) :=
  if 0 ≤ p then some (ls.drop p.toNat)
  else if p.natAbs ≤ ls.length then some (ls.drop (ls.length - p.natAbs) ++ ls)
  else none

/-- The place of the last line of the block opened at `start`. -/
def blockEnd? (ls : List Line) (start indent : Int) : Option Int := do
  let after ← linesFrom? ls (start + 1)
  return start + (block indent after).length

/-- The decorators in the run from `start` to `stop`, and the first place behind the run. -/
def decorators? (ls : List Line) (start stop : Int) : Option (List Text × Int) :=
  let size := (stop + 1 - start).toNat
  if size = 0 then some ([], start)
  else do
    let from_ ← linesFrom? ls start
    let run := decoratorRun (from_.take size)
    if run.length = from_.length ∧ from_.length < size then none
    else return (decoratorTexts run, start + run.length)

/-- The docstring of the block from `start` to `stop`, and the first place of the body behind
it. -/
def docstring? (ls : List Line) (start stop indent : Int) (wanted : Bool) :
    Option (Option Text × Int) :=
  let size := (stop - start).toNat
  if ! wanted then some (none, start + 1)
  else if size = 0 then some (none, stop + 1)
  else do
    let after ← linesFrom? ls (start + 1)
    if after.all (·.isBlank) ∧ after.length < size then none
    else
      let d := Docstring.read indent size after
      return (d.text, start + 1 + d.bodyOffset)

/-- The text of the lines from `start` to `stop`. A place before the file is its first line, and
one behind it its last; a negative `stop` counts from the end. -/
def excerpt (ls : List Line) (start stop : Int) : Text :=
  let first := (max 0 start).toNat
  let limit := min (ls.length - 1 : Int) stop + 1
  let behind := if 0 ≤ limit then limit.toNat else ls.length - limit.natAbs
  Line.excerpt ((ls.take behind).drop first)

end SymbolGraph.Position
