import SymbolGraph.FileTree.Basic
set_option autoImplicit false

/-!
# Paths without links

A path is resolved into one from the top that has no links and does not lead up. Names of things
that are not there stay as they are. A link that leads back to itself stays too, with all that
follows it; if the path then cannot be followed for its links, resolving it fails. So does
resolving a path with a null character.
-/

namespace SymbolGraph

mutual

/-- The number of links in an entry. -/
def Entry.linkCount : Entry → Nat
  | .file _ => 0
  | .dir children => linkCounts children
  | .link _ => 1

/-- The number of links in a directory. -/
def linkCounts : Directory → Nat
  | [] => 0
  | (_, e) :: rest => e.linkCount + linkCounts rest

end

/-- Why a path cannot be resolved. -/
inductive ResolveFault
  /-- Its links lead back to themselves; the path is as far as it was resolved. -/
  | loop (path : Path)
  | nullCharacter
  deriving DecidableEq, Repr

/-- The text of a fault. -/
def ResolveFault.message : ResolveFault → Text
  | loop path => "Symlink loop from ".toList ++ path.written.quoted
  | nullCharacter => PathCause.nullCharacter.wording.toList

/-- The outcome of resolving names: those reached, and whether no link led back to itself. -/
abbrev Resolved := List Points × Bool

namespace FileTree

/-- The target of the link that names from the top lead to. -/
def linkAt? (t : FileTree) (names : List Points) : Option Points :=
  match t.follow .entry 0 [] names with
  | .ok (.taken _ (.link target)) => some target
  | _ => none

/-- Resolves names after others that are resolved. What a link stands for is told by
`resolveLink`, which is given the link's own names and its target. -/
def resolveNames (t : FileTree) (resolveLink : List Points → Points → Resolved) :
    List Points → List Points → Resolved
  | done, [] => (done, true)
  | done, n :: rest =>
    if n = [] || n = Path.here then resolveNames t resolveLink done rest
    else if n = Path.up then resolveNames t resolveLink done.dropLast rest
    else
      match t.linkAt? (done ++ [n]) with
      | none => resolveNames t resolveLink (done ++ [n]) rest
      | some target =>
        match resolveLink (done ++ [n]) target with
        | (names, true) => resolveNames t resolveLink names rest
        | (names, false) => (names ++ rest, false)

/-- Resolves a link, while those in `active` are being resolved. The number bounds how deep
links lie in each other; no more than the links of the tree do. -/
def resolveLink (t : FileTree) : Nat → List (List Points) → List Points → Points → Resolved
  | 0, _, names, _ => (names, false)
  | depth + 1, active, names, target =>
    if names ∈ active then (names, false)
    else
      let start := if target.head? = some Path.slash then [] else names.dropLast
      t.resolveNames (resolveLink t depth (names :: active)) start (linkNames target [])

/-- The path from the top, without links, that leads where a path leads. -/
def resolve (t : FileTree) (p : Path) : Except ResolveFault Path :=
  let start := if p.absolute then [] else t.cwd
  let (names, _) := t.resolveNames (t.resolveLink (linkCounts t.top + 1) []) start p.names
  let q := Path.ofTop (Path.normalize (names.filter fun n => n ≠ [] && n ≠ Path.here))
  if p.written.contains nullPoint then .error .nullCharacter
  else
    match t.find q with
    | .error .tooManyLinks => .error (.loop q)
    | _ => .ok q

end FileTree

end SymbolGraph
