import SymbolGraph.Text.Point
set_option autoImplicit false

/-!
# Paths

A path is a list of names, starting at the top or at the working directory. Slashes that follow
another and names that are a single dot say nothing and are dropped; two dots, which lead up,
stay, since what they lead up from may be a link. Names are strings, in which a half stands for
a byte that is no UTF-8.
-/

namespace SymbolGraph

/-- A path. -/
structure Path where
  /-- The path starts at the top of the tree. -/
  absolute : Bool := false
  names : List Points := []
  deriving DecidableEq, Repr

namespace Path

/-- The name that leads up. -/
def up : Points := .ofString ".."

/-- The name that leads nowhere. -/
def here : Points := .ofString "."

/-- What stands between names. -/
def slash : Point := .char '/'

/-- The path that a string writes. -/
def ofPoints (s : Points) : Path :=
  { absolute := s.head? = some slash
    names := (Text.split slash s).filter fun n => n ≠ [] && n ≠ here }

/-- The path that a text writes. -/
def ofText (t : Text) : Path := ofPoints t.points

/-- The path as a string. -/
def written (p : Path) : Points :=
  if p.absolute then slash :: Text.join [slash] p.names
  else if p.names = [] then here
  else Text.join [slash] p.names

/-- The path from the top with the given names. -/
def ofTop (names : List Points) : Path := { absolute := true, names }

/-- The path without its last name. -/
def parent (p : Path) : Path := { p with names := p.names.dropLast }

/-- The last name, or the empty one. -/
def name (p : Path) : Points := p.names.getLast?.getD []

/-- One path after another, unless that starts at the top. -/
def append (p q : Path) : Path :=
  if q.absolute then q else { p with names := p.names ++ q.names }

/-- The names of a path below another, if it starts with that. -/
def below? (p root : Path) : Option (List Points) :=
  if p.absolute = root.absolute && root.names.isPrefixOf p.names then
    some (p.names.drop root.names.length)
  else none

/-- Leads names up where they say so, without a look at what is there. -/
def normalize (names : List Points) : List Points :=
  names.foldl (fun done n => if n = up then done.dropLast else done ++ [n]) []

end Path

/-- The extension of a file's name: what stands from its last dot on, unless that dot is the
first or the last character. -/
def extension (name : Points) : Points :=
  let dot := Point.char '.'
  let tail := (name.reverse.takeWhile (· ≠ dot)).reverse
  if tail = [] || name.length ≤ tail.length + 1 then [] else dot :: tail

end SymbolGraph
