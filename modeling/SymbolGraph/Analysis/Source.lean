import SymbolGraph.Outline.Read
set_option autoImplicit false

/-!
# Sources

What is analysed: files with their contents, and pasted snippets, which become files with
numbered names. The content of a file may be missing; such a file counts as empty against the
limits, and has no outline.
-/

namespace SymbolGraph

/-- A file to be analysed. -/
structure SourceFile where
  name : Text
  content : Option Text
  path : Option Text := none
  deriving DecidableEq, Repr

namespace SourceFile

/-- The path of the file; without one that is not empty, its name. -/
def filePath (f : SourceFile) : Text :=
  match f.path with
  | none | some [] => f.name
  | some p => p

/-- The number of code points of the content. -/
def size (f : SourceFile) : Nat := (f.content.getD []).length

end SourceFile

/-- The file that the snippet number `n`, from 1, becomes. -/
def pastedFile (n : Nat) (content : Text) : SourceFile :=
  { name := "pasted-snippet-".toList ++ Text.ofNat n ++ ".py".toList, content := some content }

/-- The files that snippets become; blank snippets are left out and do not count. -/
def pastedFiles (snippets : List (Option Text)) : List SourceFile :=
  ((snippets.map fun s => Text.trim (s.getD [])).filter (· ≠ [])).mapIdx fun i t =>
    pastedFile (i + 1) t

/-- Files and snippets in one list. -/
def gatherSources (files : List SourceFile) (snippets : List (Option Text)) : List SourceFile :=
  files ++ pastedFiles snippets

end SymbolGraph
