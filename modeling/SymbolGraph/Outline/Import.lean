import SymbolGraph.Line.Basic
import SymbolGraph.Outline.Basic
set_option autoImplicit false

/-!
# Imports

The names of an import are read from its first line: comma-separated, with parentheses and a
trailing backslash around the list ignored, up to a comment.
-/

namespace SymbolGraph

open Text

/-- Reads `name as alias`. -/
def aliased? (t : Text) : Option ImportedName := do
  let name := t.takeWhile isDottedChar
  if name = [] then none
  let rest ← afterSomeBlanks (dropHead? "as".toList) (t.dropWhile isDottedChar)
  let newName ← afterSomeBlanks (fun a => if a ≠ [] ∧ a.all isWord then some a else none) rest
  return { name, boundAs := some newName }

/-- Reads one item of a name list. -/
def importedName (t : Text) : ImportedName := (aliased? t).getD { name := t }

/-- The characters that may enclose a name list. -/
def isListMark (c : Char) : Bool := c == '(' || c == ')' || c == '\\'

/-- Reads a name list. -/
def importedNames (t : Text) : List ImportedName :=
  (commaList (trimBy isListMark (trim (t.takeWhile (· ≠ '#'))))).map importedName

/-- The import on a line, if the line is one. -/
def Line.import? (l : Line) : Option ImportDecl :=
  match l.form with
  | .fromImport path names =>
    some { style := .fromModule, path, names := importedNames names, line := l.number,
           code := l.content }
  | .plainImport names =>
    let names := importedNames names
    let path := (names.head?.map (·.name)).getD []
    some { style := .plain, path, names, line := l.number, code := l.content }
  | _ => none

end SymbolGraph
