import SymbolGraph.FileTree.Path
import SymbolGraph.Text.Utf8
set_option autoImplicit false

/-!
# A tree of files

A tree has files, directories and links, and a working directory. A path is followed name by
name; a link on the way is replaced by the names it holds, up to a limit of forty links, and the
last name may be free. Names and whole paths have a greatest length in bytes, and no null
character. Some files may not be read. What stops a path is a cause with a text and, unless it
is a null character, a number.
-/

namespace SymbolGraph

/-- What a directory holds under a name. -/
inductive Entry
  | file (bytes : List UInt8)
  | dir (children : List (Points × Entry))
  | link (target : Points)

/-- The entries of a directory, in the order in which they were made. -/
abbrev Directory := List (Points × Entry)

/-- A tree of files with a working directory. -/
structure FileTree where
  /-- The directory at the top. -/
  top : Directory := []
  /-- The names that lead from the top to the working directory, none of them a link. -/
  cwd : List Points := []
  /-- The files that may not be read: the names that lead to them from the top. -/
  closed : List (List Points) := []

/-- Why something cannot be done to a path. -/
inductive PathCause
  | missing
  | denied
  | taken
  | notADirectory
  | isADirectory
  | nameTooLong
  | tooManyLinks
  | nullCharacter
  deriving DecidableEq, Repr

namespace PathCause

/-- The number of a cause, if it has one. -/
def code? : PathCause → Option Nat
  | missing => some 2
  | denied => some 13
  | taken => some 17
  | notADirectory => some 20
  | isADirectory => some 21
  | nameTooLong => some 36
  | tooManyLinks => some 40
  | nullCharacter => none

/-- The words of a cause. -/
def wording : PathCause → String
  | missing => "No such file or directory"
  | denied => "Permission denied"
  | taken => "File exists"
  | notADirectory => "Not a directory"
  | isADirectory => "Is a directory"
  | nameTooLong => "File name too long"
  | tooManyLinks => "Too many levels of symbolic links"
  | nullCharacter => "embedded null byte"

end PathCause

/-- A cause together with the path that it stopped. -/
structure PathFault where
  cause : PathCause
  path : Path
  deriving DecidableEq, Repr

/-- The text of a fault. -/
def PathFault.message (f : PathFault) : Text :=
  match f.cause.code? with
  | none => f.cause.wording.toList
  | some code =>
    "[Errno ".toList ++ Text.ofNat code ++ "] ".toList ++ f.cause.wording.toList
      ++ ": ".toList ++ f.path.written.quoted

/-! ## Directories -/

namespace Directory

/-- The entry under a name. -/
def child? (name : Points) : Directory → Option Entry
  | [] => none
  | (n, e) :: rest => if n = name then some e else child? name rest

/-- Puts an entry under a name, in the place of the one there. -/
def put (name : Points) (e : Entry) : Directory → Directory
  | [] => [(name, e)]
  | (n, old) :: rest => if n = name then (n, e) :: rest else (n, old) :: put name e rest

/-- What is put under a name is found there, and all other names keep what they had. -/
theorem child?_put (name other : Points) (e : Entry) (d : Directory) :
    (d.put name e).child? other = if other = name then some e else d.child? other := by
  induction d with
  | nil =>
    by_cases h : other = name
    · simp [put, child?, h]
    · simp [put, child?, h, Ne.symm h]
  | cons head rest ih =>
    obtain ⟨n, old⟩ := head
    by_cases hn : n = name
    · subst hn
      by_cases ho : n = other
      · simp [put, child?, ho]
      · simp [put, child?, ho, Ne.symm ho]
    · by_cases ho : n = other
      · subst ho
        simp [put, child?, hn]
      · simp [put, child?, hn, ho, ih]

/-- The directory that names lead to, none of them a link. -/
def descend? : List Points → Directory → Option Directory
  | [], d => some d
  | n :: ns, d =>
    match d.child? n with
    | some (.dir e) => descend? ns e
    | _ => none

/-- Puts an entry under a name into the directory that names lead to. -/
def putAt (name : Points) (e : Entry) : List Points → Directory → Directory
  | [], d => d.put name e
  | n :: ns, d =>
    match d.child? n with
    | some (.dir c) => d.put n (.dir (putAt name e ns c))
    | _ => d

end Directory

/-! ## Following a path -/

/-- Where a path leads. -/
inductive Place
  /-- To an entry; the names lead to it from the top, none of them a link on the way. -/
  | taken (names : List Points) (e : Entry)
  /-- To a name that is free in a directory. -/
  | free (directory : List Points) (name : Points)

/-- Where a file is or can be: a directory, and the name in it. -/
structure FilePlace where
  directory : List Points
  name : Points
  deriving DecidableEq, Repr

/-- How far names lead without a link. -/
inductive Stretch
  | arrived (p : Place)
  /-- A link in a directory, and the names after it. -/
  | link (directory : List Points) (target : Points) (rest : List Points)

/-- The names that a link holds, before those that follow the link. A slash at the end asks for
a directory; where nothing follows, an empty name stands for it. -/
def linkNames (target : Points) (rest : List Points) : List Points :=
  (Text.split Path.slash target).filter (· ≠ []) ++
    (if rest = [] && target.getLast? = some Path.slash then [[]] else rest)

/-- What no path has in it. -/
def nullPoint : Point := .char '\x00'

/-- The most links that are followed on the way to one place. -/
def maxLinks : Nat := 40

/-- The greatest number of bytes of a name. -/
def maxNameBytes : Nat := 255

/-- The greatest number of bytes of a path. -/
def maxPathBytes : Nat := 4095

/-- What a path is followed for. -/
inductive Aim
  /-- To look at what is there, through links. -/
  | look
  /-- To write a file there, through links. -/
  | write
  /-- To find or to make the entry itself, even if it is a link. -/
  | entry
  deriving DecidableEq, Repr

namespace FileTree

/-- Follows names from a directory up to a link. An empty name says that a directory must be
there; nothing can be written where it comes last. -/
def stretch (t : FileTree) (aim : Aim) : List Points → List Points → Except PathCause Stretch
  | at_, [] =>
    match Directory.descend? at_ t.top with
    | some d => .ok (.arrived (.taken at_ (.dir d)))
    | none => .error .missing
  | at_, n :: rest =>
    if n = [] || n = Path.here then stretch t aim at_ rest
    else if n = Path.up then stretch t aim at_.dropLast rest
    else if aim = .write && rest = [[]] then .error .isADirectory
    else if maxNameBytes < n.toBytes.length then .error .nameTooLong
    else
      match (Directory.descend? at_ t.top).bind (Directory.child? n) with
      | none => if rest = [] then .ok (.arrived (.free at_ n)) else .error .missing
      | some (.dir _) => stretch t aim (at_ ++ [n]) rest
      | some (.file bytes) =>
        if rest = [] then .ok (.arrived (.taken (at_ ++ [n]) (.file bytes)))
        else .error .notADirectory
      | some (.link target) =>
        if rest = [] && aim = .entry then .ok (.arrived (.taken (at_ ++ [n]) (.link target)))
        else .ok (.link at_ target rest)

/-- Follows names from a directory, through at most a number of links. -/
def follow (t : FileTree) (aim : Aim) : Nat → List Points → List Points → Except PathCause Place
  | links, at_, names =>
    match t.stretch aim at_ names with
    | .error cause => .error cause
    | .ok (.arrived p) => .ok p
    | .ok (.link at_ target rest) =>
      match links with
      | 0 => .error .tooManyLinks
      | links + 1 =>
        let start := if target.head? = some Path.slash then [] else at_
        follow t aim links start (linkNames target rest)

/-- Where a path leads. -/
def locate (t : FileTree) (p : Path) (aim : Aim) : Except PathCause Place :=
  if p.written.contains nullPoint then .error .nullCharacter
  else if maxPathBytes < p.written.toBytes.length then .error .nameTooLong
  else t.follow aim maxLinks (if p.absolute then [] else t.cwd) p.names

/-- The path from the top that a path is, without a look at what is there. -/
def absolute (t : FileTree) (p : Path) : Path :=
  Path.ofTop (Path.normalize ((if p.absolute then [] else t.cwd) ++ p.names))

/-- The entry that a path leads to, through links. -/
def find (t : FileTree) (p : Path) : Except PathCause Entry := do
  match ← t.locate p .look with
  | .taken _ e => .ok e
  | .free .. => .error .missing

/-- The entry that a path leads to, if there is one. A path that is too long is a fault even
then. -/
def find? (t : FileTree) (p : Path) : Except PathFault (Option Entry) :=
  match t.find p with
  | .ok e => .ok (some e)
  | .error .nameTooLong => .error ⟨.nameTooLong, p⟩
  | .error _ => .ok none

/-- The bytes of a file, if it may be read. -/
def read (t : FileTree) (p : Path) : Except PathFault (List UInt8) :=
  match t.locate p .look with
  | .ok (.taken names (.file bytes)) =>
    if t.closed.contains names then .error ⟨.denied, p⟩ else .ok bytes
  | .ok (.taken ..) => .error ⟨.isADirectory, p⟩
  | .ok (.free ..) => .error ⟨.missing, p⟩
  | .error cause => .error ⟨cause, p⟩

/-! ## Changing a tree -/

/-- Puts an entry under a name into a directory. -/
def put (t : FileTree) (directory : List Points) (name : Points) (e : Entry) : FileTree :=
  { t with top := t.top.putAt name e directory }

/-- Where a file can be written: over a file, or where the name is free. -/
def writable (t : FileTree) (p : Path) : Except PathFault FilePlace :=
  match t.locate p .write with
  | .ok (.taken names (.file _)) => .ok ⟨names.dropLast, names.getLast?.getD []⟩
  | .ok (.taken _ _) => .error ⟨.isADirectory, p⟩
  | .ok (.free directory name) => .ok ⟨directory, name⟩
  | .error cause => .error ⟨cause, p⟩

/-- Writes a file. -/
def write (t : FileTree) (p : Path) (bytes : List UInt8) : Except PathFault FileTree := do
  let place ← t.writable p
  return t.put place.directory place.name (.file bytes)

/-- Adds to a file; one that is not there is made. -/
def append (t : FileTree) (place : FilePlace) (bytes : List UInt8) : FileTree :=
  match (Directory.descend? place.directory t.top).bind (Directory.child? place.name) with
  | some (.file old) => t.put place.directory place.name (.file (old ++ bytes))
  | _ => t.put place.directory place.name (.file bytes)

/-- Makes a link. -/
def link (t : FileTree) (p : Path) (target : Points) : Except PathFault FileTree :=
  if target.contains nullPoint then .error ⟨.nullCharacter, p⟩
  else if target = [] then .error ⟨.missing, p⟩
  else if maxPathBytes < target.toBytes.length then .error ⟨.nameTooLong, p⟩
  else
    match t.locate p .entry with
    | .ok (.free directory name) => .ok (t.put directory name (.link target))
    | .ok (.taken ..) => .error ⟨.taken, p⟩
    | .error cause => .error ⟨cause, p⟩

/-- Makes one directory. -/
def makeDirectory (t : FileTree) (p : Path) : Except PathFault FileTree :=
  match t.locate p .entry with
  | .ok (.free directory name) => .ok (t.put directory name (.dir []))
  | .ok (.taken ..) => .error ⟨.taken, p⟩
  | .error cause => .error ⟨cause, p⟩

/-- A directory that is there already need not be made. -/
def allowExisting (t : FileTree) (p : Path) (r : Except PathFault FileTree) :
    FileTree × Option PathFault :=
  match r, t.find? p with
  | .ok t, _ => (t, none)
  | .error _, .ok (some (.dir _)) => (t, none)
  | .error fault, .ok _ => (t, some fault)
  | .error _, .error fault => (t, some fault)

/-- Makes a directory and those above it that are missing; the names are in reverse. The
directories made stay when one further down cannot be made. -/
def makeReversed (t : FileTree) (absolute : Bool) :
    List Points → FileTree × Option PathFault
  | [] => t.allowExisting ⟨absolute, []⟩ (t.makeDirectory ⟨absolute, []⟩)
  | n :: above =>
    let p : Path := ⟨absolute, (n :: above).reverse⟩
    match t.makeDirectory p with
    | .error ⟨.missing, _⟩ =>
      match makeReversed t absolute above with
      | (t, none) => t.allowExisting p (t.makeDirectory p)
      | failed => failed
    | r => t.allowExisting p r

/-- Makes a directory and those above it that are missing. -/
def makeDirectories (t : FileTree) (p : Path) : FileTree × Option PathFault :=
  t.makeReversed p.absolute p.names.reverse

end FileTree

end SymbolGraph
