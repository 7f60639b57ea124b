import Std.Time.Format
import SymbolGraph.CommandLine.Run
import SymbolGraph.Settings.EnvironmentFile
import SymbolGraph.Settings.Read
set_option autoImplicit false

/-!
# The program

Reads the settings from the environment and its file, and the files that a run looks at into a
tree, runs the command line on it, then prints and stores what the run gives. The system hands
names over as texts, so that none of them has halves here.
-/

namespace SymbolGraph

/-- The text of how the program is called. -/
def usageText : String :=
  "usage: [-h] [--output OUTPUT] [--no-docstrings] [--parsed] [--stats] [--log-level LOG_LEVEL]"
    ++ " [--log-file LOG_FILE] path"

/-- The names of the settings in the environment. -/
def environmentNames : List String :=
  ["LOG_LEVEL", "LOG_FILE", "MAX_FILES", "MAX_TOTAL_CHARS", "MAX_FILE_SIZE_BYTES",
    "INCLUDE_DOCSTRINGS", "VALUE_SNIPPET_MAX_LEN", "SUPPORTED_EXTENSIONS", "GRAPH_OUTPUT_PATH"]

/-- The file with further bindings for the environment. -/
def environmentFile : IO Text := do
  try return (← IO.FS.readFile ".env").toList catch _ => return []

/-- The part of the environment that the settings, or bindings of the file, ask for. -/
def readEnvironment : IO Environment := do
  let file ← environmentFile
  let referred := (EnvironmentFile.bindings file).flatMap fun (_, value) =>
    (EnvironmentFile.referred (value.getD [])).map String.ofList
  let mut found := []
  for name in referred ++ environmentNames ++ environmentNames.map String.toLower do
    if let some value ← IO.getEnv name then
      found := found ++ [(name.toList, value.toList)]
  return EnvironmentFile.extend { entries := found } file

/-! ## The tree of a run -/

/-- A string as the system writes it. -/
def systemText (s : Points) : String := String.ofList s.shown

/-- The text of a path from the top, for the file system. -/
def systemPath (names : List Points) : String := systemText (Path.ofTop names).written

/-- The file at a place of the system, and whether it may be read. One that may not has its size
and no content that counts. -/
def readEntry (names : List Points) : IO (Entry × Bool) := do
  let path := (IO.FS.DirEntry.mk (systemPath names.dropLast)
    (systemText (names.getLast?.getD Path.here))).path
  try return (.file (← IO.FS.readBinFile path).toList, true)
  catch _ => return (.file (List.replicate (← path.metadata).byteSize.toNat 0), false)

/-- Puts an entry where names lead from the top, with the directories above it. -/
def FileTree.place (t : FileTree) (names : List Points) (e : Entry) : FileTree :=
  match names.getLast?, e with
  | none, .dir children => { t with top := children }
  | none, _ => t
  | some name, e => (t.makeDirectories (Path.ofTop names.dropLast)).1.put names.dropLast name e

/-- Puts the file of the system that names lead to in the same place of a tree. -/
def placeFile (t : FileTree) (names : List Points) : IO FileTree := do
  let (file, isOpen) ← readEntry names
  let t := t.place names file
  return if isOpen then t else { t with closed := names :: t.closed }

/-- Puts what a scan looks at below a directory of the system in a tree. Links to files count as
files, other links are left out, and of files without a source file's extension only the name is
taken. -/
partial def placeBelow (extensions : List Text) (t : FileTree) (names : List Points) :
    IO FileTree := do
  let directory := systemPath names
  let mut t := (t.makeDirectories (Path.ofTop names)).1
  for child in ← (IO.FS.DirEntry.mk directory ".").path.readDir do
    let name : Points := .ofString child.fileName
    let below := names ++ [name]
    try
      match (← child.path.symlinkMetadata).type, (← child.path.metadata).type with
      | .dir, _ =>
        if ignoredDirectories.contains name then t := (t.makeDirectories (Path.ofTop below)).1
        else t ← placeBelow extensions t below
      | _, .file =>
        if hasExtension extensions name then t ← placeFile t below
        else t := t.place below (.file [])
      | _, _ => pure ()
    catch _ => pure ()
  return t

/-- What is on the way to a path, as far as it is there. -/
def placeWay (t : FileTree) (p : Path) : IO FileTree := do
  let names := Path.normalize ((if p.absolute then [] else t.cwd) ++ p.names)
  let mut t := t
  for count in List.range (names.length + 1) do
    let way := names.take count
    let path := (IO.FS.DirEntry.mk (systemPath way.dropLast)
      (systemText (way.getLast?.getD Path.here))).path
    if ← path.isDir then t := (t.makeDirectories (Path.ofTop way)).1
    else if ← path.pathExists then t ← placeFile t way
  return t

/-- The path of the file system with its links followed. -/
def followed (p : Path) : IO Path := do
  return Path.ofText (← IO.FS.realPath (systemText p.written)).toString.toList

/-- Places a target's entry in the tree. The directory above the target is given without links;
a target that is itself a link stays one. A target that is not there is taken as it is
written. -/
def placeTarget (s : Settings) (t : FileTree) (target : Path) : IO (FileTree × Path) := do
  let start : Path := (Path.ofTop t.cwd).append target
  try
    let real ← followed start
    let above ← followed start.parent
    let isDirectory ← (IO.FS.DirEntry.mk (systemPath real.names) ".").path.isDir
    let t ← if isDirectory then placeBelow (s.extensionList.toOption.getD []) t real.names
      else placeFile t real.names
    let named := above.append ⟨false, [start.name]⟩
    if named = real || [[], Path.up].contains start.name then return (t, real)
    else return (t.place named.names (.link real.written), named)
  catch _ => return (t, start)

/-- The time it is. -/
def currentStamp : IO TimeStamp := do
  let now ← Std.Time.DateTime.now
  let zone : Zone :=
    { name := now.timezone.abbreviation.toList, offset := now.offset.second.val }
  let universal := now.toTimestamp.toNanosecondsSinceUnixEpoch.val / 1000
  return { clock := universal + zone.offset * TimeStamp.perSecond, zone := some zone }

/-! ## What a run leaves behind -/

/-- The bytes of the file that a path leads to. -/
def FileTree.bytes? (t : FileTree) (p : Path) : Option (List UInt8) :=
  match t.find p with
  | .ok (.file bytes) => some bytes
  | _ => none

/-- Stores the file that a path leads to in the system, if a run made or changed it, whatever
the run came to otherwise. The directories that a run made are made too. -/
def storeChanged (before after : FileTree) (p : Path) : IO Unit := do
  if let .ok (.dir _) := after.find p.parent then
    IO.FS.createDirAll (systemText p.parent.written)
  if let some bytes := after.bytes? p then
    if before.bytes? p ≠ some bytes then
      IO.FS.writeBinFile (systemText p.written) ⟨bytes.toArray⟩

/-- A log record as a line of the log: a half is written by its code. -/
def logLine (time : TimeStamp) (r : LogRecord) : String :=
  String.ofList ((r.line time).flatMap fun p =>
    match p with
    | .char c => [c]
    | half => half.escape '"') ++ "\n"

/-- Prints and stores what a run gives. -/
def finish (i : Invocation) (time : TimeStamp) (before : FileTree) (f : Finished) :
    IO UInt32 := do
  for r in f.outcome.log do IO.eprint (logLine time r)
  if let some file := f.logFile then
    IO.FS.createDirAll (systemText file.parent.written)
    let handle ← IO.FS.Handle.mk (systemText file.written) .append
    for r in f.outcome.log do
      if let some line := (r.line time).text? then handle.putStr (String.ofList line ++ "\n")
  if let some output := i.output then
    if output ≠ [] && ! i.parsed then
      storeChanged before f.outcome.tree (Path.ofPoints output)
  IO.print (String.ofList f.outcome.printed.stdout)
  IO.eprint (String.ofList f.outcome.printed.stderr)
  return UInt32.ofNat f.outcome.code

/-- Runs the command line on the files of the system. -/
def runOnSystem (s : Settings) (i : Invocation) (target : Path) : IO UInt32 := do
  let cwd := (Path.ofText (← IO.currentDir).toString.toList).names
  let time ← currentStamp
  let t : FileTree := ({ cwd } : FileTree).makeDirectories (Path.ofTop cwd) |>.1
  let (t, target) ← placeTarget s t target
  let t ← placeWay t (Path.ofPoints (i.output.getD []))
  let t ← placeWay t (Path.ofPoints (((i.logName s).toOption.bind id).getD []))
  match i.start s time t target with
  | .error fault =>
    IO.eprintln (systemText fault.message)
    return 1
  | .ok f => finish i time t f

end SymbolGraph

open SymbolGraph

/-- The entry of the program. -/
def main (arguments : List String) : IO UInt32 := do
  match Settings.read [] (← readEnvironment),
    Invocation.read (arguments.map Points.ofString) with
  | .error faults, _ =>
    for fault in faults do IO.eprintln (fault.field ++ ": " ++ fault.cause.message)
    return 1
  | .ok _, .error fault =>
    IO.eprintln usageText
    return UInt32.ofNat fault.exitCode
  | .ok s, .ok (i, target) => runOnSystem s i (Path.ofPoints target)
