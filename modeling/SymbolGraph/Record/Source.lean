import SymbolGraph.Analysis.Basic
import SymbolGraph.Outline.Export
import SymbolGraph.Record.Build
import SymbolGraph.Record.Spelled
set_option autoImplicit false

/-!
# Sources as they are exchanged

A source that comes from outside has a name, a content and a path that are any JSON values. One
whose values are texts is a file (`SourceRecord.file?`) and is measured and outlined as that
file. The others are measured if they have a length. To be outlined a source must have a text
for its content and a string for its name; its path is handed on as it is. Where names or paths
have halves, the graph is that of the spelled outlines.
-/

namespace SymbolGraph

/-- A source as exchanged. -/
structure SourceRecord where
  name : Json
  content : Json
  path : Json := .null
  deriving DecidableEq, Repr

/-- The record of a file. -/
def SourceFile.record (f : SourceFile) : SourceRecord :=
  { name := .text f.name, content := Json.ofText? f.content, path := Json.ofText? f.path }

/-- Why exchanged sources are not analysed. -/
inductive SourceFault
  /-- They are not analysed for a reason for which files are not. -/
  | analysis (fault : AnalysisFault)
  /-- A content has no length. -/
  | noLength
  /-- The name of a source is no string. -/
  | notAName
  /-- The outlines make no graph. -/
  | record (fault : RecordFault)
  deriving DecidableEq, Repr

/-- The text of a fault, for those that have one. -/
def SourceFault.message : SourceFault → Text
  | analysis fault => fault.message
  | noLength | notAName => []
  | record fault => fault.message

/-- The text that a value is, or none if it is null. -/
def Json.optionalText? : Json → Option (Option Text)
  | .null => some none
  | v => v.text?.map some

namespace SourceRecord

/-- The file that a source is, if its values are texts. -/
def file? (f : SourceRecord) : Option SourceFile := do
  return { name := ← f.name.text?, content := ← f.content.optionalText?
           path := ← f.path.optionalText? }

/-- The path of the source; without one that counts as true, its name. -/
def filePath (f : SourceRecord) : Json := if f.path.truthy then f.path else f.name

/-- The length of the content, which is none if the content counts as false. -/
def size (f : SourceRecord) : Except SourceFault Nat :=
  match f.file?, f.content with
  | some file, _ => .ok file.size
  | none, .str s => .ok s.length
  | none, .arr vs => .ok vs.length
  | none, .obj fs => .ok fs.length
  | none, v => if v.truthy then .error .noLength else .ok 0

/-- The source as JSON. -/
def toJson (f : SourceRecord) : Json :=
  Json.ofFields [("name", f.name), ("path", f.path), ("file_path", f.filePath),
    ("content", f.content)]

end SourceRecord

/-- The outline of a source, with its path and the name of its module. -/
structure OutlinedSource where
  outline : Outline
  moduleName : Points
  filePath : Json
  deriving DecidableEq, Repr

namespace OutlinedSource

/-- The outline of a file. -/
def ofOutline (o : Outline) : OutlinedSource :=
  ⟨o, o.moduleName.points, Json.ofText? o.filePath⟩

/-- The outline, if its path and the name of its module are those of the source. -/
def outline? (o : OutlinedSource) : Option Outline :=
  if o = ofOutline o.outline then some o.outline else none

/-- The outline spelled as one with texts, if the path is a string. -/
def spelled? (o : OutlinedSource) : Option Outline :=
  match o.filePath with
  | .str path => some (o.outline.spelledWith o.moduleName path)
  | _ => none

/-- The record of the outline, with the path of the source and the name of its module. -/
def record (o : OutlinedSource) : OutlineRecord :=
  { o.outline.record with filePath := o.filePath, moduleName := .str o.moduleName }

/-- The outline as JSON. -/
def toJson (o : OutlinedSource) : Json := o.outline.toJsonAt o.filePath (.str o.moduleName)

end OutlinedSource

namespace SourceRecord

/-- The outline of a source. -/
def outline (options : ReadingOptions) (f : SourceRecord) : Except SourceFault OutlinedSource :=
  match f.file? with
  | some file => ((file.outline options).mapError .analysis).map .ofOutline
  | none => do
    let some content := f.content.text? | .error (.analysis .noContent)
    let .str name := f.name | .error .notAName
    let file : SourceFile := { name := [], content := some content }
    let o ← (file.outline options).mapError .analysis
    return ⟨o, name.lift moduleNameOf, f.filePath⟩

/-- Checks sources against the limits. -/
def checkLimits (options : AnalysisOptions) (files : List SourceRecord) :
    Except SourceFault Unit := do
  let exceeds (count : Nat) (limit : Limit) :=
    (exceeds count limit).mapError SourceFault.analysis
  if ← exceeds files.length options.maxFiles then
    throw (.analysis (.tooManyFiles options.maxFiles))
  let sizes ← files.mapM size
  if ← exceeds (sizes.foldl (· + ·) 0) options.maxTotalChars then
    throw (.analysis (.tooLarge options.maxTotalChars))

/-- Sources and snippets in one list. -/
def gather (files : List SourceRecord) (snippets : List (Option Text)) : List SourceRecord :=
  files ++ (pastedFiles snippets).map SourceFile.record

/-- The sources of an analysis, checked. -/
def prepare (options : AnalysisOptions) (files : List SourceRecord)
    (snippets : List (Option Text)) : Except SourceFault (List SourceRecord) :=
  let sources := gather files snippets
  if sources = [] then .error (.analysis .noSources)
  else do
    checkLimits options sources
    return sources

/-- The outlines of the sources of an analysis. -/
def outlineAll (options : AnalysisOptions) (files : List SourceRecord)
    (snippets : List (Option Text)) : Except SourceFault (List OutlinedSource) := do
  (← prepare options files snippets).mapM (outline options.reading)

end SourceRecord

namespace OutlinedSource

/-- The draft of some outlines. -/
def draft (os : List OutlinedSource) : Except SourceFault DraftRecord :=
  match os.mapM outline? with
  | some outlines => .ok (Draft.build outlines).record
  | none => (DraftRecord.build (os.map record)).mapError .record

/-- The graph of some outlines. -/
def graph (os : List OutlinedSource) : Except SourceFault GraphRecord :=
  match os.mapM outline?, os.mapM spelled? with
  | some outlines, _ => .ok (Graph.build outlines).record
  | none, some outlines => .ok (Graph.build outlines).record.unspelled
  | none, none => do (← draft os).graph.mapError .record

/-- The outlines as one value. -/
def allJson (os : List OutlinedSource) : Json := modulesJson (os.map toJson)

end OutlinedSource

/-- The graph of the sources of an analysis. -/
def SourceRecord.analyze (options : AnalysisOptions) (files : List SourceRecord)
    (snippets : List (Option Text)) : Except SourceFault GraphRecord := do
  OutlinedSource.graph (← outlineAll options files snippets)

/-! ## Files as they are exchanged -/

/-- A text that may be missing is read back from its value. -/
@[simp] theorem Json.optionalText?_ofText? (t : Option Text) :
    (Json.ofText? t).optionalText? = some t := by
  cases t with
  | none => rfl
  | some t =>
    have read := Json.text?_text t
    simp only [Json.ofText?, Json.text] at read ⊢
    simp [Json.optionalText?, read]

namespace SourceFile

/-- A file is read back from its record. -/
@[simp] theorem file?_record (f : SourceFile) : f.record.file? = some f := by
  simp [SourceRecord.file?, record]

/-- The record of a file has the path of the file. -/
theorem filePath_record (f : SourceFile) : f.record.filePath = .text f.filePath := by
  obtain ⟨name, content, path⟩ := f
  rcases path with _ | (_ | _) <;> rfl

/-- The record of a file has the size of the file. -/
theorem size_record (f : SourceFile) : f.record.size = .ok f.size := by
  simp [SourceRecord.size]

/-- The record of a file has the outline of the file. -/
theorem outline_record (options : ReadingOptions) (f : SourceFile) :
    f.record.outline options =
      ((f.outline options).mapError .analysis).map OutlinedSource.ofOutline := by
  simp [SourceRecord.outline]

end SourceFile

namespace OutlinedSource

/-- Outlines of files are read back. -/
theorem mapM_outline?_ofOutline (os : List Outline) :
    (os.map ofOutline).mapM outline? = some os := by
  induction os with
  | nil => rfl
  | cons o os ih => simp [List.mapM_cons, ih, outline?, ofOutline]

/-- The outlines of files have the draft that is built of them. -/
theorem draft_ofOutline (os : List Outline) :
    draft (os.map ofOutline) = .ok (Draft.build os).record := by
  rw [draft, mapM_outline?_ofOutline]

/-- The outlines of files have the graph that is built of them. -/
theorem graph_ofOutline (os : List Outline) :
    graph (os.map ofOutline) = .ok (Graph.build os).record := by
  rw [graph, mapM_outline?_ofOutline]

end OutlinedSource

end SymbolGraph
