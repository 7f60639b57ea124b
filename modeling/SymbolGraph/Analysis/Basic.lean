import SymbolGraph.Analysis.Source
import SymbolGraph.Draft.Build
import SymbolGraph.Settings.Basic
set_option autoImplicit false

/-!
# Analysis

Sources are checked against the limits, outlined, and made into a graph. An analysis fails when
there are no sources, when there are too many, or when they are too large together.
-/

namespace SymbolGraph

/-- How files are outlined: with docstrings or without, and the greatest length of a snippet. -/
structure ReadingOptions where
  docstrings : Bool
  snippetLength : Limit
  deriving DecidableEq, Repr

/-- How much is analysed, and how. -/
structure AnalysisOptions where
  maxFiles : Limit
  maxTotalChars : Limit
  reading : ReadingOptions
  deriving DecidableEq, Repr

/-- How files are outlined by the settings and the choices of one call. -/
def Settings.readingOptions (s : Settings) (docstrings : Option Bool := none)
    (snippetLength : Json := .null) : ReadingOptions :=
  { docstrings := docstrings.getD s.docstrings.truthy
    snippetLength := .ofJson (chosen snippetLength s.snippetLength) }

/-- The options that settings and the choices of one call give. -/
def Settings.analysisOptions (s : Settings) (docstrings : Option Bool := none)
    (maxFiles maxTotalChars : Json := .null) : AnalysisOptions :=
  { maxFiles := .ofJson (chosen maxFiles s.maxFiles)
    maxTotalChars := .ofJson (chosen maxTotalChars s.maxTotalChars)
    reading := s.readingOptions docstrings }

/-- Why an analysis fails. -/
inductive AnalysisFault
  /-- There is nothing to analyse. -/
  | noSources
  /-- There are more files than the limit. -/
  | tooManyFiles (limit : Limit)
  /-- The files have more code points together than the limit. -/
  | tooLarge (limit : Limit)
  /-- A file has no content. -/
  | noContent
  /-- A setting has the wrong type. -/
  | setting (fault : TypeFault)
  deriving DecidableEq, Repr

/-- The text of a fault. -/
def AnalysisFault.message : AnalysisFault → Text
  | noSources => "No valid files or snippets provided".toList
  | tooManyFiles limit => "Too many files. Max ".toList ++ limit.shown ++ ['.']
  | tooLarge limit =>
      "Payload too large. Total characters exceed ".toList ++ limit.shown ++ ['.']
  | noContent => "A file has no content".toList
  | setting fault => fault.message

/-- The number of code points of all files together. -/
def totalSize (files : List SourceFile) : Nat := files.foldl (fun n f => n + f.size) 0

/-- A count exceeds a limit. -/
def exceeds (count : Nat) (limit : Limit) : Except AnalysisFault Bool :=
  (limit.exceeded count).mapError .setting

/-- Checks files against the limits. -/
def checkLimits (options : AnalysisOptions) (files : List SourceFile) :
    Except AnalysisFault Unit := do
  if ← exceeds files.length options.maxFiles then throw (.tooManyFiles options.maxFiles)
  if ← exceeds (totalSize files) options.maxTotalChars
    then throw (.tooLarge options.maxTotalChars)

/-- The sources of an analysis, checked. -/
def prepareSources (options : AnalysisOptions) (files : List SourceFile)
    (snippets : List (Option Text)) : Except AnalysisFault (List SourceFile) :=
  let sources := gatherSources files snippets
  if sources = [] then .error .noSources
  else do
    checkLimits options sources
    return sources

/-- The outline of a content. With a limit that is no integer no snippet may need cutting. -/
def SourceFile.outlineOf (options : ReadingOptions) (f : SourceFile) (content : Text) :
    Except AnalysisFault Outline :=
  let read (snippetLength : Int) : Outline :=
    Outline.read { docstrings := options.docstrings, snippetLength } f.filePath f.name content
  match options.snippetLength.integer?, options.snippetLength with
  | none, .other v =>
    let outline := read content.length
    match outline.globals.findSome? fun g => Limit.cutFault? v (g.snippet.getD []).length with
    | some fault => .error (.setting fault)
    | none => .ok outline
  | n?, _ => .ok (read (n?.getD 0))

/-- The outline of a file, which must have a content. -/
def SourceFile.outline (options : ReadingOptions) (f : SourceFile) :
    Except AnalysisFault Outline :=
  match f.content with
  | none => .error .noContent
  | some content => f.outlineOf options content

/-- The outlines of files. -/
def outlines (options : ReadingOptions) : List SourceFile → Except AnalysisFault (List Outline)
  | [] => .ok []
  | f :: fs =>
    match f.outline options with
    | .error fault => .error fault
    | .ok o => (outlines options fs).map (o :: ·)

/-- The outlines of the sources of an analysis. -/
def outlineSources (options : AnalysisOptions) (files : List SourceFile)
    (snippets : List (Option Text)) : Except AnalysisFault (List Outline) := do
  outlines options.reading (← prepareSources options files snippets)

/-- The graph of the sources of an analysis. -/
def analyze (options : AnalysisOptions) (files : List SourceFile)
    (snippets : List (Option Text)) : Except AnalysisFault Graph := do
  return Graph.build (← outlineSources options files snippets)

end SymbolGraph
