import SymbolGraph.FileTree.Resolve
import SymbolGraph.Record.Source
set_option autoImplicit false

/-!
# Source files of a tree

A scan finds the files below a directory that have one of the extensions and are not too large.
It leaves out directories that tools keep for themselves, and does not enter links to
directories; a link to a file counts as that file. The files found are in the order of their
paths.
-/

namespace SymbolGraph

/-- The directories that a scan leaves out. -/
def ignoredDirectories : List Points :=
  [".git", ".venv", "venv", "env", "__pycache__", "node_modules", ".idea", ".vscode",
    ".pytest_cache", ".mypy_cache", ".tox", "build", "dist"].map Points.ofString

/-- A file below a directory that a scan goes through: the names that lead to it from there. -/
abbrev Found := List Points

mutual

/-- The names of all that a scan passes below a directory and that is no directory: the entries
of the directory itself, then those of the directories in it. -/
def Entry.passed (ignored : List Points) (above : Found) : Entry → List Found
  | .dir children => passedHere above children ++ passedBelow ignored above children
  | _ => []

/-- The names of the entries of a directory that are no directories. -/
def passedHere (above : Found) : Directory → List Found
  | [] => []
  | (_, .dir _) :: rest => passedHere above rest
  | (n, _) :: rest => (above ++ [n]) :: passedHere above rest

/-- The names passed below the directories in a directory. -/
def passedBelow (ignored : List Points) (above : Found) : Directory → List Found
  | [] => []
  | (n, e) :: rest =>
    (if ignored.contains n then [] else e.passed ignored (above ++ [n]))
      ++ passedBelow ignored above rest

end

/-- What a scan looks for. -/
structure ScanOptions where
  /-- The extensions of the files, in lower case. -/
  extensions : List Text
  /-- The greatest size of a file. -/
  maxSize : Limit
  deriving DecidableEq, Repr

/-- What a scan makes of a file. -/
inductive Verdict
  | taken
  | tooLarge
  /-- The size does not compare with the limit. -/
  | notCompared (fault : TypeFault)
  | passedOver
  deriving DecidableEq, Repr

/-- What a scan found: the files taken, in the order of their paths, those too large, in the
order in which the scan passed them, and the fault of a limit that sizes do not compare with. -/
structure ScanResult where
  taken : List Found
  tooLarge : List Found
  fault : Option TypeFault
  deriving DecidableEq, Repr

/-- The path below a directory as a string. -/
def Found.written (f : Found) : Points := (Path.mk false f).written

/-- The extension of a name is in lower case one of those given. One with halves is none. -/
def hasExtension (extensions : List Text) (name : Points) : Bool :=
  match (extension name).text? with
  | some t => extensions.contains (Text.lower t)
  | none => false

namespace FileTree

/-- What a scan below `root` makes of a file. -/
def verdict (t : FileTree) (options : ScanOptions) (root : Path) (f : Found) : Verdict :=
  if hasExtension options.extensions (f.getLast?.getD []) then
    match t.find (root.append ⟨false, f⟩) with
    | .ok (.file bytes) =>
      match options.maxSize.exceeded bytes.length with
      | .ok true => .tooLarge
      | .ok false => .taken
      | .error fault => .notCompared fault
    | _ => .passedOver
  else .passedOver

/-- Finds the source files below a directory. -/
def scan (t : FileTree) (options : ScanOptions) (root : Path) : ScanResult :=
  let passed :=
    match t.find root with
    | .ok e => e.passed ignoredDirectories []
    | .error _ => []
  { taken := (passed.filter fun f => t.verdict options root f = .taken).mergeSort fun a b =>
      Text.le a.written b.written
    tooLarge := passed.filter fun f => t.verdict options root f = .tooLarge
    fault := passed.findSome? fun f =>
      match t.verdict options root f with
      | .notCompared fault => some fault
      | _ => none }

/-- Why a file cannot be loaded. -/
inductive LoadFault
  /-- It is not below the directory that it should be below. -/
  | outside (path root : Path)
  /-- It cannot be read. -/
  | unreadable (fault : PathFault)
  /-- Its path has a null character. -/
  | nullCharacter
  deriving DecidableEq, Repr

/-- The text of a fault. -/
def LoadFault.message : LoadFault → Text
  | outside path root =>
    path.written.quoted ++ " is not in the subpath of ".toList ++ root.written.quoted
      ++ " OR one path is relative and the other is absolute.".toList
  | unreadable fault => fault.message
  | nullCharacter => PathCause.nullCharacter.wording.toList

/-- Loads a file below a directory. -/
def load (t : FileTree) (root path : Path) : Except LoadFault SourceRecord :=
  match path.below? root with
  | none => .error (.outside path root)
  | some names =>
    match t.read path with
    | .error ⟨.nullCharacter, _⟩ => .error .nullCharacter
    | .error fault => .error (.unreadable fault)
    | .ok bytes =>
      .ok { name := .str path.name
            content := .text (Text.normalizeNewlines (Utf8.decode bytes))
            path := .str (Found.written names) }

end FileTree

end SymbolGraph
