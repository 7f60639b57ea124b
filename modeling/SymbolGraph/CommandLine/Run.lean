import SymbolGraph.CommandLine.Arguments
import SymbolGraph.FileTree.Scan
import SymbolGraph.Log.Basic
import SymbolGraph.Log.FileName
import SymbolGraph.Record.Query
import SymbolGraph.Record.Store
set_option autoImplicit false

/-!
# Running a command line

A run is a function of a tree of files, the settings, the time and the arguments. It gives what
is printed, the log, the code that the program ends with and the tree afterwards. Source files
are gathered and analysed; the outlines or the graph are printed, or the graph is stored. What
goes wrong on the way is logged and gives the code 1. A log level that does not exist or a log
file that cannot be opened stops the program before the run.

What is printed, stored or written to a log file is UTF-8. A string with halves, which names of
files may bring in, cannot be printed or stored, and a record with halves is not written to the
log file.
-/

namespace SymbolGraph

open Text

/-- Why a run fails. -/
inductive RunFault
  | path (fault : PathFault)
  | resolve (fault : ResolveFault)
  | load (fault : FileTree.LoadFault)
  | source (fault : SourceFault)
  | store (fault : StoreFault)
  | setting (fault : TypeFault)
  deriving DecidableEq, Repr

/-- The text of a fault. -/
def RunFault.message : RunFault → Text
  | path fault => fault.message
  | resolve fault => fault.message
  | load fault => fault.message
  | source fault => fault.message
  | store fault => fault.message
  | setting fault => fault.message

/-! ## Sessions -/

/-- What lives through a run. -/
structure Session where
  tree : FileTree
  time : TimeStamp
  /-- The least level of the records that the log keeps. -/
  least : Level := .info
  /-- The records kept so far. -/
  log : List LogRecord := []
  /-- The file that the records are also written to. -/
  logFile : Option FilePlace := none

/-- Notes a record, if the log keeps it. -/
def Session.note (s : Session) (r : LogRecord) : Session :=
  if r.isKept s.least then
    { s with
      log := s.log ++ [r]
      tree :=
        match s.logFile, (r.line s.time).text? with
        | some place, some line => s.tree.append place (line ++ ['\n']).toBytes
        | _, _ => s.tree }
  else s

/-- A part of a run: it may change the session, and may fail. -/
abbrev Run (α : Type) : Type := ExceptT RunFault (StateM Session) α

namespace Run

/-- Notes a record. -/
def note (level : Level) (parts : List Points) : Run Unit :=
  modify fun s => s.note ⟨level, parts.flatten⟩

/-- The tree of the session. -/
def tree : Run FileTree := do return (← get).tree

/-- The result of something that may fail. -/
def ofExcept {α ε : Type} (wrap : ε → RunFault) : Except ε α → Run α
  | .ok a => pure a
  | .error e => throw (wrap e)

/-- The number of items as a string. -/
def countText {α : Type} (xs : List α) : Points := (ofNat xs.length).points

/-! ## Gathering sources -/

/-- The path without links. -/
def resolve (p : Path) : Run Path := do
  ofExcept .resolve ((← tree).resolve p)

/-- Loads a file below a directory. One that cannot be read is noted and left out. -/
def loadOne (t : FileTree) (root path : Path) : Run (Option SourceRecord) := do
  match t.load root path with
  | .ok file => return some file
  | .error (.unreadable fault) =>
    note .error [.ofString "Error loading file ", fault.path.written, .ofString ": ",
      fault.message.points]
    return none
  | .error fault => throw (.load fault)

/-- Loads files below a directory. -/
def load (root : Path) (paths : List Path) : Run (List SourceRecord) := do
  note .info [.ofString "Loading content for ", countText paths, .ofString " files"]
  let files := (← paths.mapM (loadOne (← tree) root)).filterMap id
  note .info [.ofString "Successfully loaded content for ", countText files, .ofString " files"]
  return files

/-- What a scan looks for by the settings. -/
def scanOptions (settings : Settings) : Run ScanOptions := do
  let extensions ← ofExcept .setting settings.extensionList
  return { extensions, maxSize := .ofJson settings.maxFileSize }

/-- Scans a directory. -/
def scan (options : ScanOptions) (root : Path) : Run (List Path) := do
  note .info [.ofString "Scanning directory: ", root.written]
  let found := (← tree).scan options root
  if let some fault := found.fault then throw (.setting fault)
  let pathOf (f : Found) : Path := root.append ⟨false, f⟩
  for f in found.tooLarge do
    note .warning [.ofString "Skipping large file: ", (pathOf f).written]
  note .info [.ofString "Found ", countText found.taken, .ofString " files to process"]
  return found.taken.map pathOf

/-- Gathers the source files of a path: the file it leads to, or those below the directory. -/
def gather (settings : Settings) (target : Path) : Run (List SourceRecord) := do
  match ← ofExcept .path ((← tree).find? target) with
  | some (.file _) =>
    let root ← resolve target.parent
    discard (scanOptions settings)
    load root [← resolve target]
  | _ =>
    let root ← resolve target
    load root (← scan (← scanOptions settings) root)

/-! ## Analysing -/

/-- Outlines source files. -/
def outline (options : AnalysisOptions) (files : List SourceRecord) :
    Run (List OutlinedSource) := do
  let sources ← ofExcept .source (SourceRecord.prepare options files [])
  note .info [.ofString "Parsing ", countText sources, .ofString " files"]
  sources.mapM fun f => do
    let o ← ofExcept .source (f.outline options.reading)
    note .debug [.ofString "Parsed ", o.filePath.plain, .ofString ": ",
      countText o.outline.classes, .ofString " classes, ", countText o.outline.functions,
      .ofString " functions, ", countText o.outline.imports, .ofString " imports, ",
      countText o.outline.globals, .ofString " variables"]
    return o

/-- Builds the graph of outlines. -/
def graph (os : List OutlinedSource) : Run GraphRecord := do
  let g ← ofExcept .source (OutlinedSource.graph os)
  let size := [countText g.nodes, .ofString " nodes, ", countText g.edges, .ofString " edges"]
  note .debug ([.ofString "Built graph from ", countText os, .ofString " modules: "] ++ size)
  note .info (.ofString "Graph ready: " :: size)
  return g

/-! ## Results -/

/-- The text that is printed for a string, which must have no halves. -/
def print (written : Except StoreFault Points) : Run Text := do
  let s ← ofExcept .store written
  let text ← ofExcept (.store ∘ .encode) s.encode
  return text ++ ['\n']

/-- Stores a graph. -/
def save (g : GraphRecord) (path : Path) : Run Unit := do
  let (t, fault) := g.save (← tree) path
  modify fun s => { s with tree := t }
  match fault with
  | some fault => throw (.store fault)
  | none =>
    note .info [.ofString "Saved graph with ", countText g.nodes, .ofString " nodes to ",
      path.written]

end Run

/-- What a run prints. -/
structure Printed where
  stdout : Text := []
  stderr : Text := []
  deriving DecidableEq, Repr

/-- The indentation of what is printed. -/
def printedIndent : Option Text := Json.spaces 2

/-- The counts of a graph, if they are asked for. -/
def Invocation.statsText (i : Invocation) (g : GraphRecord) : Text :=
  if i.stats then (Json.write printedIndent g.counts).shown ++ ['\n'] else []

/-- Does what the arguments ask for. -/
def Invocation.work (i : Invocation) (settings : Settings) (target : Path) : Run Printed := do
  let options := settings.analysisOptions (if i.noDocstrings then some false else none)
  let os ← Run.outline options (← Run.gather settings target)
  if i.parsed then
    return { stdout := ← Run.print ((OutlinedSource.allJson os).dump printedIndent) }
  let g ← Run.graph os
  match i.output with
  | none | some [] =>
    discard (Run.ofExcept .setting (pathString settings.outputPath))
    return { stdout := ← Run.print (g.dump printedIndent), stderr := i.statsText g }
  | some output =>
    Run.save g (Path.ofPoints output)
    return { stderr := i.statsText g }

/-- What a run leaves behind. -/
structure Outcome where
  /-- The code that the program ends with. -/
  code : Nat := 0
  printed : Printed := {}
  log : List LogRecord
  tree : FileTree

/-- Runs what the arguments ask for. -/
def Invocation.run (i : Invocation) (settings : Settings) (session : Session) (target : Path) :
    Outcome :=
  match i.work settings target session with
  | (.ok printed, after) => { printed, log := after.log, tree := after.tree }
  | (.error fault, after) =>
    let after := after.note ⟨.error, .ofString "Analysis failed: " ++ fault.message.points⟩
    { code := 1, log := after.log, tree := after.tree }

/-! ## Setting the log up -/

/-- Why a program stops before the run. -/
inductive StartFault
  | arguments (fault : ArgumentFault)
  /-- The log level is no text. -/
  | noLevel
  /-- There is no such log level. -/
  | level (word : Points)
  /-- The log file of the settings is no path. -/
  | notAPath (fault : TypeFault)
  /-- The name of the log file is no name. -/
  | fileName (fault : FileNameFault)
  /-- The log file cannot be opened. -/
  | logFile (fault : PathFault)
  deriving DecidableEq, Repr

/-- The text of a fault, for those that have one. -/
def StartFault.message : StartFault → Points
  | arguments _ | noLevel => []
  | level word => .ofString "Level '" ++ word ++ .ofString "' does not exist"
  | notAPath fault => fault.message.points
  | fileName fault => fault.message.points
  | logFile fault => fault.message.points

/-- The level asked for, or that of the settings. -/
def Invocation.level (i : Invocation) (settings : Settings) : Except StartFault Level :=
  match i.logLevel.getD settings.logLevel.string? with
  | none => .error .noLevel
  | some word =>
    let word := word.lift Text.upper
    match word.text?.bind Level.ofWord? with
    | none => .error (.level word)
    | some level => .ok level

/-- The log file that is asked for, or that of the settings, if there is one with a name. -/
def Invocation.logName (i : Invocation) (settings : Settings) :
    Except TypeFault (Option Points) :=
  let asked := (i.logFile.map Json.str).getD settings.logFile
  if asked.truthy then (pathString asked).map some else .ok none

/-- Opens a log file: the tree then, and the path of the file. The directories of the name as it
is given are made first, then those of the name that it comes to at the time. -/
def FileTree.openLog (t : FileTree) (time : TimeStamp) (name : Points) :
    Except StartFault (FileTree × Path) :=
  match t.makeDirectories (Path.ofPoints name).parent, FileName.readPoints time name with
  | (_, some fault), _ => .error (.logFile fault)
  | (_, none), .error fault => .error (.fileName fault)
  | (t, none), .ok name =>
    let path := t.absolute (Path.ofPoints name)
    match t.makeDirectories path.parent with
    | (_, some fault) => .error (.logFile fault)
    | (t, none) =>
      match t.writable path with
      | .error fault => .error (.logFile fault)
      | .ok place => .ok (t.append place [], path)

/-- A program that ran: its outcome, and its log file. -/
structure Finished where
  outcome : Outcome
  logFile : Option Path := none

/-- Sets the log up, then runs what the arguments ask for. -/
def Invocation.start (i : Invocation) (settings : Settings) (time : TimeStamp) (t : FileTree)
    (target : Path) : Except StartFault Finished := do
  let least ← i.level settings
  match ← (i.logName settings).mapError .notAPath with
  | none => return { outcome := i.run settings { tree := t, time, least } target }
  | some name =>
    let (t, path) ← t.openLog time name
    let session := { tree := t, time, least, logFile := (t.writable path).toOption }
    return { outcome := i.run settings session target, logFile := some path }

/-- Runs a command line. -/
def runCommand (settings : Settings) (time : TimeStamp) (t : FileTree)
    (arguments : List Points) : Except StartFault Finished :=
  match Invocation.read arguments with
  | .error fault => .error (.arguments fault)
  | .ok (i, target) => i.start settings time t (Path.ofPoints target)

/-! ## Files of a tree -/

mutual

/-- The files in an entry, with the names that lead to them. -/
def Entry.files (above : Found) : Entry → List (Found × List UInt8)
  | .file bytes => [(above, bytes)]
  | .dir children => filesIn above children
  | .link _ => []

/-- The files in a directory, with the names that lead to them. -/
def filesIn (above : Found) : Directory → List (Found × List UInt8)
  | [] => []
  | (n, e) :: rest => e.files (above ++ [n]) ++ filesIn above rest

end

/-- The files below the working directory that an earlier tree did not have. -/
def FileTree.newFiles (after before : FileTree) : List (Found × List UInt8) :=
  let filesOf (t : FileTree) : List (Found × List UInt8) :=
    filesIn [] ((Directory.descend? t.cwd t.top).getD [])
  let old := (filesOf before).map (·.1)
  (filesOf after).filter fun f => ! old.contains f.1

end SymbolGraph
